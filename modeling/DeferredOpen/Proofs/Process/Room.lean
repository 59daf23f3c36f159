import DeferredOpen.Sink

/-!
# What fits into a sink

One number decides how far the writes of a run get: what has been written is the start of all that
was to be written, as long as the room at the beginning. The flush that fails is counted from the
beginning, too.
-/

namespace DeferredOpen.Sink

def takes (s : Sink) (n : Nat) : Bool := s.room.all fun room => n ≤ room

/-- What the flush meets that is `k` flushes ahead. -/
def flushFaultAt? (s : Sink) (k : Nat) : Option Fault :=
  s.flushFault.bind fun f => if s.flushes + k = f.1 then some f.2 else none

/-- What a write meets at the end of the room. -/
def refusalFault (s : Sink) : Fault := s.refusal.getD writeZero

/-- A write at the end of the room gives up instead of trying for ever. -/
def GivesUp (s : Sink) : Prop := ∀ fault, s.refusal = some fault → fault.kind? ≠ some .interrupted

theorem givesUp_default : ({} : Sink).GivesUp := by
  intro fault h
  cases h

/-- Everything that is written is taken, and every flush passes it on. -/
structure TakesAll (s : Sink) : Prop where
  room : s.room = none
  flushFault : s.flushFault = none

theorem takesAll_default : ({} : Sink).TakesAll := ⟨rfl, rfl⟩

theorem TakesAll.takes {s : Sink} (h : s.TakesAll) (n : Nat) : s.takes n = true := by
  rw [Sink.takes, h.room]
  rfl

theorem TakesAll.flushFaultAt? {s : Sink} (h : s.TakesAll) (k : Nat) :
    s.flushFaultAt? k = none := by
  rw [Sink.flushFaultAt?, h.flushFault]
  rfl

theorem refuse_eq {s : Sink} (h : s.GivesUp) : s.refuse = .failed s.refusalFault := by
  unfold refuse refusalFault
  cases hr : s.refusal with
  | none => rfl
  | some fault => simp [h fault hr]

/-- A write is completed exactly when there is room for it. -/
theorem length_fitting_eq_iff (s : Sink) (bytes : Bytes) :
    (s.fitting bytes).length = bytes.length ↔ s.takes bytes.length = true := by
  unfold fitting takes
  cases s.room with
  | none => simp
  | some room =>
    simp only [List.length_take, Option.all_some, decide_eq_true_eq]
    omega

theorem fitting_eq_self {s : Sink} {bytes : Bytes} (h : s.takes bytes.length = true) :
    s.fitting bytes = bytes := by
  unfold fitting
  unfold takes at h
  cases hr : s.room with
  | none => rfl
  | some room =>
    rw [hr] at h
    exact List.take_of_length_le (by simpa using h)

theorem fitting_prefix (s : Sink) (bytes : Bytes) : s.fitting bytes <+: bytes := by
  unfold fitting
  cases s.room with
  | none => exact List.prefix_rfl
  | some room => exact List.take_prefix room bytes

theorem write_fst (s : Sink) (bytes : Bytes) :
    (s.write bytes).1 = if s.takes bytes.length then .ok () else .error s.refuse := by
  by_cases h : s.takes bytes.length = true
  · simp [write, h, (length_fitting_eq_iff s bytes).mpr h]
  · have hlen := mt (length_fitting_eq_iff s bytes).mp h
    simp [write, h, hlen]

/-- What fits of two writes is what fits of the first, and then of the second. -/
theorem fitting_append (s : Sink) (as bs : Bytes) :
    s.fitting (as ++ bs) = s.fitting as ++ (s.write as).2.fitting bs := by
  unfold write fitting
  cases hr : s.room with
  | none => rfl
  | some room =>
    simp only [Option.map_some, List.length_take, List.take_append]
    congr 2
    omega

/-- What fits of two writes begins with the first one, if that is completed. -/
theorem append_drop_fitting {s : Sink} {as : Bytes} (h : s.takes as.length = true) (bs : Bytes) :
    as ++ (s.fitting (as ++ bs)).drop as.length = s.fitting (as ++ bs) := by
  rw [fitting_append, fitting_eq_self h, List.drop_left]

/-- Behind a write that was completed there is room for as much as there was for both. -/
theorem takes_write {s : Sink} {bytes : Bytes} (h : s.takes bytes.length = true) (n : Nat) :
    (s.write bytes).2.takes n = s.takes (bytes.length + n) := by
  have hfit := fitting_eq_self h
  unfold takes at h ⊢
  simp only [write, hfit]
  cases hr : s.room with
  | none => rfl
  | some room =>
    simp only [hr, Option.all_some, decide_eq_true_eq, Option.map_some] at h ⊢
    exact decide_eq_decide.mpr (by omega)

theorem GivesUp.write {s : Sink} (h : s.GivesUp) (bytes : Bytes) : (s.write bytes).2.GivesUp := h

/-- A flush changes nothing but the count of flushes. -/
theorem flush_snd (s : Sink) : s.flush.2 = { s with flushes := s.flushes + 1 } := by
  unfold flush
  cases s.flushFault <;> rfl

theorem flush_fst (s : Sink) :
    s.flush.1 = match s.flushFaultAt? 1 with
      | some fault => .error (.failed fault)
      | none => .ok () := by
  unfold flush flushFaultAt?
  cases s.flushFault with
  | none => rfl
  | some f =>
    simp only [Option.bind_some]
    split <;> rfl

@[simp] theorem takes_flush (s : Sink) (n : Nat) : s.flush.2.takes n = s.takes n := by
  rw [flush_snd]
  rfl

@[simp] theorem fitting_flush (s : Sink) (bytes : Bytes) :
    s.flush.2.fitting bytes = s.fitting bytes := by
  rw [flush_snd]
  rfl

@[simp] theorem refusalFault_flush (s : Sink) : s.flush.2.refusalFault = s.refusalFault := by
  rw [flush_snd]
  rfl

theorem flushFaultAt?_flush (s : Sink) (k : Nat) :
    s.flush.2.flushFaultAt? k = s.flushFaultAt? (k + 1) := by
  rw [flush_snd]
  simp only [flushFaultAt?, Nat.add_assoc, Nat.add_comm 1]

/-- Behind something that was printed there is room for as much as there was for both. -/
theorem takes_printed {s : Sink} {bytes : Bytes} (h : s.takes bytes.length = true) (n : Nat) :
    (s.write bytes).2.flush.2.takes n = s.takes (bytes.length + n) := by
  rw [takes_flush, takes_write h]

/-- What is printed takes one flush. -/
theorem flushFaultAt?_printed (s : Sink) (bytes : Bytes) (k : Nat) :
    (s.write bytes).2.flush.2.flushFaultAt? k = s.flushFaultAt? (k + 1) :=
  flushFaultAt?_flush (s.write bytes).2 k

theorem GivesUp.flush {s : Sink} (h : s.GivesUp) : s.flush.2.GivesUp := by
  rw [flush_snd]
  exact h

/-- Where the first of two writes does not fit there is nothing of the second. -/
theorem fitting_append_of_not_takes {s : Sink} {as : Bytes} (h : s.takes as.length = false)
    (bs : Bytes) : s.fitting (as ++ bs) = s.fitting as := by
  unfold takes at h
  unfold fitting
  cases hr : s.room with
  | none => simp [hr] at h
  | some room =>
    simp only [hr, Option.all_some, decide_eq_false_iff_not] at h
    exact List.take_append_of_le_length (by omega)

/-- A sink that was another one has taken all the bytes `done` since, and flushed so often. -/
structure Past (start : Sink) (done : Bytes) (flushed : Nat) (s : Sink) : Prop where
  takes : ∀ n, s.takes n = start.takes (done.length + n)
  fitting : ∀ bytes, start.fitting (done ++ bytes) = done ++ s.fitting bytes
  flushFaultAt? : ∀ k, s.flushFaultAt? k = start.flushFaultAt? (flushed + k)
  refusalFault : s.refusalFault = start.refusalFault
  givesUp : s.GivesUp

namespace Past

variable {start s : Sink} {done : Bytes} {flushed : Nat}

theorem begin (h : start.GivesUp) : Past start [] 0 start where
  takes n := by rw [List.length_nil, Nat.zero_add]
  fitting bytes := rfl
  flushFaultAt? k := by rw [Nat.zero_add]
  refusalFault := rfl
  givesUp := h

theorem write (h : Past start done flushed s) {bytes : Bytes}
    (hbytes : s.takes bytes.length = true) :
    Past start (done ++ bytes) flushed (s.write bytes).2 where
  takes n := by rw [takes_write hbytes, h.takes, List.length_append, Nat.add_assoc]
  fitting more := by
    have hboth := s.fitting_append bytes more
    rw [fitting_eq_self hbytes] at hboth
    rw [List.append_assoc, h.fitting, hboth, List.append_assoc]
  flushFaultAt? k := h.flushFaultAt? k
  refusalFault := h.refusalFault
  givesUp := h.givesUp.write bytes

theorem flush (h : Past start done flushed s) : Past start done (flushed + 1) s.flush.2 where
  takes n := by rw [takes_flush, h.takes]
  fitting bytes := by rw [fitting_flush, h.fitting]
  flushFaultAt? k := by
    rw [flushFaultAt?_flush, h.flushFaultAt?, Nat.add_assoc, Nat.add_comm 1]
  refusalFault := by rw [refusalFault_flush, h.refusalFault]
  givesUp := h.givesUp.flush

end Past

end DeferredOpen.Sink
