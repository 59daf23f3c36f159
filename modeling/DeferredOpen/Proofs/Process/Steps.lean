import DeferredOpen.Process

/-!
# Runs as steps

A run that goes straight ahead is told by the steps it would take if nothing came in between. It
performs them one after the other, up to the first one that ends the run. `Follows` says this of
an action in a process, and the rules below build it up in the order of the `do` blocks: a step
that passes hands over to the rest, and a step that ends the run is the last one. What is only
logged is not counted as a deed.
-/

namespace DeferredOpen

/-- Whether an event is more than a record in the log. -/
def Event.isDeed : Event → Bool
  | .logged _ => false
  | _ => true

/-- The bytes that an event has left in the sink. -/
def Event.written : Event → Bytes
  | .wrote bytes => bytes
  | _ => []

/-- The path that an event has tried to open, and the answer. -/
def Event.opening? : Event → Option (Path × Except SystemFault Descriptor)
  | .opened path result => some (path, result)
  | _ => none

/-- The child that an event has brought about. -/
def Event.child? : Event → Option Child
  | .started _ (.ok child) => some child
  | _ => none

namespace Process

/-- What a process has done, its log left out. -/
def deeds (p : Process) : List Event := p.history.filter Event.isDeed

/-- The openings that a process has tried, in order. -/
def openings (p : Process) : List (Path × Except SystemFault Descriptor) :=
  p.deeds.filterMap Event.opening?

@[simp] theorem deeds_after_logged (p : Process) (r : Log.Record) :
    (p.after (.logged r)).deeds = p.deeds := by
  simp [deeds, Event.isDeed]

theorem deeds_after {e : Event} (h : e.isDeed = true) (p : Process) :
    (p.after e).deeds = p.deeds ++ [e] := by
  simp [deeds, h]

/-- What is found in the events of a process that is no record is found in its deeds. -/
theorem filterMap_deeds {f : Event → Option β} (hlogged : ∀ r, f (.logged r) = none)
    (p : Process) : p.deeds.filterMap f = p.history.filterMap f := by
  rw [deeds, List.filterMap_filter]
  congr 1
  funext e
  cases e with
  | logged r => simp [Event.isDeed, hlogged]
  | _ => rfl

/-- A process has gone on to another one by some deeds, which were over at an instant. -/
structure Leads (p q : Process) (events : List Event) (ended : Nat) : Prop where
  world : q.world = p.world
  now : q.now = ended
  deeds : q.deeds = p.deeds ++ events
  accepted : q.out.accepted = p.out.accepted ++ events.flatMap Event.written
  children : q.children = p.children ++ events.filterMap Event.child?

namespace Leads

variable {p q r : Process} {ds es : List Event} {t u : Nat}

theorem refl (p : Process) : p.Leads p [] p.now where
  world := rfl
  now := rfl
  deeds := (List.append_nil _).symm
  accepted := (List.append_nil _).symm
  children := (List.append_nil _).symm

theorem trans (h : p.Leads q ds t) (h' : q.Leads r es u) : p.Leads r (ds ++ es) u where
  world := h'.world.trans h.world
  now := h'.now
  deeds := by rw [h'.deeds, h.deeds, List.append_assoc]
  accepted := by rw [h'.accepted, h.accepted, List.flatMap_append, List.append_assoc]
  children := by rw [h'.children, h.children, List.filterMap_append, List.append_assoc]

theorem logged (p : Process) (r : Log.Record) : p.Leads (p.after (.logged r)) [] p.now where
  world := rfl
  now := rfl
  deeds := by rw [deeds_after_logged, List.append_nil]
  accepted := (List.append_nil _).symm
  children := (List.append_nil _).symm

/-- The process `q` is `p` with what one deed has brought, and the deed is still to be noted. -/
theorem after {e : Event} (hdeed : e.isDeed = true) (hworld : q.world = p.world)
    (hhistory : q.history = p.history) (haccepted : q.out.accepted = p.out.accepted ++ e.written)
    (hchildren : q.children = p.children ++ [e].filterMap Event.child?) :
    p.Leads (q.after e) [e] q.now where
  world := hworld
  now := rfl
  deeds := by rw [deeds_after hdeed, Process.deeds, Process.deeds, hhistory]
  accepted := by
    rw [List.flatMap_singleton]
    exact haccepted
  children := hchildren

theorem openings (h : p.Leads q ds t) :
    q.openings = p.openings ++ ds.filterMap Event.opening? := by
  rw [Process.openings, h.deeds, List.filterMap_append]
  rfl

end Leads

end Process

/-- A step of a run: the deeds it leaves behind, when it is over, and the end it brings to the
run, if it brings one. -/
structure Step (α : Type) where
  deeds : List Event
  ended : Nat
  ending : Option (Except Stop α) := none

namespace Step

variable {α : Type}

/-- The steps that are performed: those up to the first one that ends the run. -/
def performed : List (Step α) → List (Step α)
  | [] => []
  | s :: rest => s :: if s.ending.isSome then [] else performed rest

/-- What comes of a run: the first ending that a step brings, or else the last word. -/
def outcome (steps : List (Step α)) (last : Except Stop α) : Except Stop α :=
  (steps.findSome? Step.ending).getD last

/-- When a run is over that begins at an instant. -/
def finishedAt (start : Nat) (steps : List (Step α)) : Nat :=
  ((performed steps).getLast?.map Step.ended).getD start

def trace (steps : List (Step α)) : List Event := (performed steps).flatMap Step.deeds

variable {s : Step α} {rest : List (Step α)}

theorem performed_pass (h : s.ending = none) : performed (s :: rest) = s :: performed rest := by
  simp [performed, h]

theorem performed_stop {r : Except Stop α} (h : s.ending = some r) :
    performed (s :: rest) = [s] := by
  simp [performed, h]

theorem outcome_pass (h : s.ending = none) (last : Except Stop α) :
    outcome (s :: rest) last = outcome rest last := by
  simp [outcome, h]

theorem outcome_stop {r : Except Stop α} (h : s.ending = some r) (last : Except Stop α) :
    outcome (s :: rest) last = r := by
  simp [outcome, h]

theorem trace_pass (h : s.ending = none) : trace (s :: rest) = s.deeds ++ trace rest := by
  simp [trace, performed_pass h]

theorem trace_stop {r : Except Stop α} (h : s.ending = some r) : trace (s :: rest) = s.deeds := by
  simp [trace, performed_stop h]

theorem trace_nil : trace ([] : List (Step α)) = [] := rfl

/-- A step hands over to the rest unless it ends the run. -/
theorem trace_cons (s : Step α) (rest : List (Step α)) :
    trace (s :: rest) = s.deeds ++ if s.ending.isSome then [] else trace rest := by
  cases h : s.ending with
  | none => simp [trace_pass h]
  | some r => simp [trace_stop h]

theorem finishedAt_pass (h : s.ending = none) (start : Nat) :
    finishedAt start (s :: rest) = finishedAt s.ended rest := by
  unfold finishedAt
  rw [performed_pass h, List.getLast?_cons]
  cases (performed rest).getLast? with
  | none => rfl
  | some t => rfl

theorem finishedAt_stop {r : Except Stop α} (h : s.ending = some r) (start : Nat) :
    finishedAt start (s :: rest) = s.ended := by
  simp [finishedAt, performed_stop h]

end Step

namespace Action

variable {α β : Type}

theorem runIn_bind_ok {a : Action β} {k : β → Action α} {q q' : Process} {x : β}
    (h : a.runIn q = (.ok x, q')) : (a >>= k).runIn q = (k x).runIn q' := by
  change (ExceptT.bindCont k ((a.runIn q).1)) (a.runIn q).2 = _
  rw [h]
  rfl

theorem runIn_bind_error {a : Action β} {k : β → Action α} {q q' : Process} {e : Stop}
    (h : a.runIn q = (.error e, q')) : (a >>= k).runIn q = (.error e, q') := by
  change (ExceptT.bindCont k ((a.runIn q).1)) (a.runIn q).2 = _
  rw [h]
  rfl

theorem runIn_pure (x : α) (q : Process) : (pure x : Action α).runIn q = (.ok x, q) := rfl

theorem runIn_map (f : β → α) (a : Action β) (q : Process) :
    (f <$> a).runIn q = ((a.runIn q).1.map f, (a.runIn q).2) := by
  rw [map_eq_pure_bind]
  cases ha : a.runIn q with
  | mk result q' =>
    cases result with
    | ok x =>
      rw [runIn_bind_ok ha, runIn_pure]
      rfl
    | error e =>
      rw [runIn_bind_error ha]
      rfl

end Action

/-- An action does in a process what the steps say, and gives the last word when all of them
pass. -/
structure Follows {α : Type} (a : Action α) (q : Process) (steps : List (Step α))
    (last : Except Stop α) : Prop where
  result : (a.runIn q).1 = Step.outcome steps last
  leads : q.Leads (a.runIn q).2 (Step.trace steps) (Step.finishedAt q.now steps)

namespace Follows

variable {α β : Type} {a : Action β} {b : Action α} {k : β → Action α} {q q' : Process}
  {s : Step α} {steps : List (Step α)} {last : Except Stop α}

theorem pure (x : α) : Follows (Pure.pure x) q [] (.ok x) where
  result := rfl
  leads := .refl q

/-- A step that passes hands over to the rest. -/
theorem pass {x : β} (hrun : a.runIn q = (.ok x, q')) (hend : s.ending = none)
    (hs : q.Leads q' s.deeds s.ended) (hrest : Follows (k x) q' steps last) :
    Follows (a >>= k) q (s :: steps) last := by
  have hbind := Action.runIn_bind_ok (k := k) hrun
  constructor
  · rw [hbind, hrest.result, Step.outcome_pass hend]
  · rw [hbind, Step.trace_pass hend, Step.finishedAt_pass hend, ← hs.now]
    exact hs.trans hrest.leads

/-- A step that ends the run is the last one. -/
theorem stop {r : Except Stop α} (hrun : b.runIn q = (r, q')) (hend : s.ending = some r)
    (hs : q.Leads q' s.deeds s.ended) : Follows b q (s :: steps) last := by
  constructor
  · rw [hrun, Step.outcome_stop hend]
  · rw [hrun, Step.trace_stop hend, Step.finishedAt_stop hend]
    exact hs

/-- An action that does nothing that counts may come before the steps. -/
theorem quiet {x : β} (hrun : a.runIn q = (.ok x, q')) (hs : q.Leads q' [] q.now)
    (hrest : Follows (k x) q' steps last) : Follows (a >>= k) q steps last := by
  have hbind := Action.runIn_bind_ok (k := k) hrun
  constructor
  · rw [hbind, hrest.result]
  · rw [hbind, ← hs.now]
    exact hs.trans hrest.leads

theorem log (r : Log.Record) {k : Unit → Action α}
    (hrest : Follows (k ()) (q.after (.logged r)) steps last) :
    Follows (Action.log r >>= k) q steps last :=
  quiet rfl (.logged q r) hrest

end Follows

end DeferredOpen
