import DeferredOpen.Proofs.Process.Effects

/-!
# Printing a line

To print a line is to write it and to pass it on. The two steps count as one: it has one fault, that
of the write or else that of the flush, and what follows is performed if there is none.
-/

namespace DeferredOpen

/-- What the printing of a line meets that ends with the `n`-th byte and is passed on with the
`k`-th flush. -/
def Sink.printFault? (s : Sink) (n k : Nat) : Option Fault :=
  if s.takes n then s.flushFaultAt? k else some s.refusalFault

theorem Sink.printFault?_eq_none_iff (s : Sink) (n k : Nat) :
    s.printFault? n k = none ↔ s.takes n = true ∧ s.flushFaultAt? k = none := by
  unfold printFault?
  by_cases h : s.takes n = true <;> simp [h]

namespace Step

variable {α : Type}

def printing (base : Sink) (before bytes : Bytes) (k now : Nat) : List (Step α) :=
  [.writing base before bytes now, .passing base k now]

variable (base : Sink) (before bytes : Bytes) (k now : Nat) (rest : List (Step α))

/-- A line that is not printed ends the run with its fault. -/
theorem outcome_printing (last : Except Stop α) :
    outcome (printing base before bytes k now ++ rest) last =
      match base.printFault? (before.length + bytes.length) k with
      | some fault => .error (.failed fault)
      | none => outcome rest last := by
  unfold Sink.printFault?
  by_cases htakes : base.takes (before.length + bytes.length) = true
  · cases hflush : base.flushFaultAt? k <;>
      simp [printing, outcome, writing, passing, htakes, hflush]
  · simp [printing, outcome, writing, htakes]

/-- What follows a line is performed if the line is printed. -/
theorem trace_printing :
    trace (printing base before bytes k now ++ rest) =
      .wrote ((base.fitting (before ++ bytes)).drop before.length) ::
        ((if base.takes (before.length + bytes.length) then [.flushed] else []) ++
          if base.printFault? (before.length + bytes.length) k = none then trace rest else []) := by
  unfold Sink.printFault?
  by_cases htakes : base.takes (before.length + bytes.length) = true
  · cases hflush : base.flushFaultAt? k <;>
      simp [printing, trace_cons, writing, passing, htakes, hflush]
  · simp [printing, trace_cons, writing, htakes]

/-- Events that are no printing are left to what follows the line. -/
theorem filterMap_trace_printing {f : Event → Option β} (hwrote : ∀ bytes, f (.wrote bytes) = none)
    (hflushed : f .flushed = none) :
    (trace (printing base before bytes k now ++ rest)).filterMap f =
      if base.printFault? (before.length + bytes.length) k = none then (trace rest).filterMap f
      else [] := by
  rw [trace_printing, List.filterMap_cons_none (hwrote _), List.filterMap_append]
  have hpassing : (if base.takes (before.length + bytes.length) then [Event.flushed]
      else []).filterMap f = [] := by
    split
    · exact List.filterMap_cons_none hflushed
    · rfl
  rw [hpassing, List.nil_append]
  split <;> rfl

theorem written_printing :
    (trace (printing base before bytes k now ++ rest)).flatMap Event.written =
      (base.fitting (before ++ bytes)).drop before.length ++
        if base.printFault? (before.length + bytes.length) k = none then
          (trace rest).flatMap Event.written
        else [] := by
  rw [trace_printing, List.flatMap_cons, List.flatMap_append]
  have hpassing : (if base.takes (before.length + bytes.length) then [Event.flushed]
      else []).flatMap Event.written = [] := by
    split <;> rfl
  rw [hpassing, List.nil_append]
  congr 1
  split <;> rfl

/-! The same for a line with nothing behind it. -/

theorem outcome_printing_last (last : Except Stop α) :
    outcome (printing base before bytes k now) last =
      match base.printFault? (before.length + bytes.length) k with
      | some fault => .error (.failed fault)
      | none => last := by
  rw [← List.append_nil (printing base before bytes k now), outcome_printing]
  rfl

theorem filterMap_trace_printing_last {f : Event → Option β}
    (hwrote : ∀ bytes, f (.wrote bytes) = none) (hflushed : f .flushed = none) :
    (trace (printing base before bytes k now : List (Step α))).filterMap f = [] := by
  rw [← List.append_nil (printing base before bytes k now),
    filterMap_trace_printing _ _ _ _ _ _ hwrote hflushed, trace_nil, List.filterMap_nil, ite_self]

theorem written_printing_last :
    (trace (printing base before bytes k now : List (Step α))).flatMap Event.written =
      (base.fitting (before ++ bytes)).drop before.length := by
  rw [← List.append_nil (printing base before bytes k now), written_printing, trace_nil,
    List.flatMap_nil, ite_self, List.append_nil]

end Step

end DeferredOpen
