import DeferredOpen.Proofs.Launcher.Course
import DeferredOpen.Proofs.Process.Printing

/-!
# What comes of a launcher

A launcher prints its announcement, starts its command and prints its farewell. The first of these
that fails ends the run, and the fault tells which one it was. So a child is there exactly if the
announcement was printed and the system has started the command, and nothing of the farewell is
written otherwise.
-/

namespace DeferredOpen

/-- The command that an event has tried to start, and what the system has made of it. -/
def Event.start? : Event → Option (Command × Except Fault Child)
  | .started c made => some (c, made)
  | _ => none

def Process.starts (p : Process) : List (Command × Except Fault Child) :=
  p.deeds.filterMap Event.start?

namespace Launcher

variable (l : Launcher) (q : Process)

/-- The announcement is written to its end, and it is passed on. -/
def Announced : Prop := q.out.takes heading.length = true ∧ q.out.flushFaultAt? 1 = none

/-- The farewell is written to its end behind the announcement, and it is passed on, too. -/
def TakesLeave : Prop :=
  q.out.takes (heading.length + footing.length) = true ∧ q.out.flushFaultAt? 2 = none

instance : Decidable (Announced q) := inferInstanceAs (Decidable (_ ∧ _))

def child? : Option Child :=
  if Announced q then (Action.startable q l.command).toOption else none

/-- What a launcher tries to print. -/
def printed : Bytes :=
  match child? l q with
  | some _ => heading ++ footing
  | none => heading

/-- What comes of a launcher: its child, or the fault of the first step that fails. -/
def ending : Except Stop Child :=
  match q.out.printFault? heading.length 1 with
  | some fault => .error (.failed fault)
  | none =>
    match Action.startable q l.command with
    | .error fault =>
      .error (.failed (fault.context ("Unable to spawn '" ++ l.command.app.shown ++ "'")))
    | .ok child =>
      match q.out.printFault? (heading.length + footing.length) 2 with
      | some fault => .error (.failed fault)
      | none => .ok child

theorem announced_iff : q.out.printFault? heading.length 1 = none ↔ Announced q :=
  q.out.printFault?_eq_none_iff _ _

theorem takesLeave_iff :
    q.out.printFault? (heading.length + footing.length) 2 = none ↔ TakesLeave q :=
  q.out.printFault?_eq_none_iff _ _

theorem child?_eq_some_iff (child : Child) :
    child? l q = some child ↔ Announced q ∧ Action.startable q l.command = .ok child := by
  unfold child?
  by_cases h : Announced q
  · cases Action.startable q l.command <;> simp [h, Except.toOption]
  · simp [h]

/-- The steps of a launcher from the start of its command on. -/
def parting : List (Step Child) :=
  .starting l.command (Action.startable q l.command) q.now ::
    Step.printing q.out heading footing 2 q.now

theorem course_eq : course l q = Step.printing q.out [] heading 1 q.now ++ parting l q := rfl

theorem outcome_course {last : Except Stop Child}
    (hlast : ∀ child, Action.startable q l.command = .ok child → last = .ok child) :
    Step.outcome (course l q) last = ending l q := by
  rw [course_eq, Step.outcome_printing, List.length_nil, Nat.zero_add, ending]
  cases q.out.printFault? heading.length 1 with
  | some fault => rfl
  | none =>
    cases hmade : Action.startable q l.command with
    | error fault =>
      simp only [parting, hmade]
      exact Step.outcome_stop rfl last
    | ok child =>
      simp only [parting, hmade]
      rw [Step.outcome_pass rfl, hlast child hmade]
      exact Step.outcome_printing_last _ _ _ _ _ _

theorem starts_course :
    (Step.trace (course l q)).filterMap Event.start? =
      if Announced q then [(l.command, Action.startable q l.command)] else [] := by
  rw [course_eq, Step.filterMap_trace_printing _ _ _ _ _ _ (fun _ => rfl) rfl, List.length_nil,
    Nat.zero_add]
  simp only [announced_iff]
  congr 1
  rw [parting, Step.trace_cons]
  cases Action.startable q l.command with
  | error fault => rfl
  | ok child =>
    exact congrArg _ (Step.filterMap_trace_printing_last _ _ _ _ _ (fun _ => rfl) rfl)

theorem children_course :
    (Step.trace (course l q)).filterMap Event.child? = (child? l q).toList := by
  have hstarts (events : List Event) : events.filterMap Event.child? =
      (events.filterMap Event.start?).filterMap fun start => start.2.toOption := by
    rw [List.filterMap_filterMap]
    congr 1
    funext e
    cases e with
    | started c made => cases made <;> rfl
    | _ => rfl
  rw [hstarts, starts_course, child?]
  by_cases h : Announced q
  · rw [if_pos h, if_pos h]
    cases Action.startable q l.command <;> rfl
  · rw [if_neg h, if_neg h]
    rfl

theorem written_course :
    (Step.trace (course l q)).flatMap Event.written = q.out.fitting (printed l q) := by
  rw [course_eq, Step.written_printing, List.length_nil, Nat.zero_add, List.nil_append,
    List.drop_zero]
  simp only [announced_iff]
  by_cases h : Announced q
  · have hchild : child? l q = (Action.startable q l.command).toOption := if_pos h
    rw [if_pos h, printed, hchild, parting, Step.trace_cons, List.flatMap_append]
    cases Action.startable q l.command with
    | error fault => exact List.append_nil _
    | ok child =>
      -- The farewell takes what is left behind the announcement.
      change _ ++ ([] ++ (Step.trace (Step.printing _ _ _ _ _)).flatMap Event.written) = _
      rw [List.nil_append, Step.written_printing_last, Sink.fitting_eq_self h.1]
      exact Sink.append_drop_fitting h.1 _
  · have hchild : child? l q = none := if_neg h
    rw [if_neg h, printed, hchild, List.append_nil]

/-- What a run of a launcher comes to that begins in the process `q`. -/
structure KeepsCourse (ran : Except Stop Child × Process) : Prop where
  /-- The deeds are those of the steps up to the first one that fails. -/
  deeds : ran.2.deeds = q.deeds ++ Step.trace (course l q)
  /-- The first step that fails decides the result. -/
  result : ran.1 = ending l q
  ok_iff : ∀ child, ran.1 = .ok child ↔
    Announced q ∧ Action.startable q l.command = .ok child ∧ TakesLeave q
  /-- The command is tried once behind the announcement, and else not at all. -/
  starts : ran.2.starts =
    q.starts ++ if Announced q then [(l.command, Action.startable q l.command)] else []
  children : ran.2.children = q.children ++ (child? l q).toList
  /-- What is to be printed is printed as far as there is room; the farewell is only if there is a
  child. -/
  output : ran.2.out.accepted = q.out.accepted ++ q.out.fitting (printed l q)
  /-- With a child under way the farewell alone can fail. -/
  late : ∀ child stop, child? l q = some child → ran.1 = .error stop →
    ∃ fault, stop = .failed fault ∧
      q.out.printFault? (heading.length + footing.length) 2 = some fault

/-- Whatever the sink and the system do: a launcher keeps to its course. -/
theorem run_keepsCourse (hgives : q.out.GivesUp) : KeepsCourse l q (l.run.runIn q) := by
  let last : Except Stop Child := (Action.startable q l.command).mapError .failed
  have hlast : ∀ child, Action.startable q l.command = .ok child → last = .ok child := by
    intro child hmade
    simp only [last, hmade]
    rfl
  have hrun := run_follows l hgives hlast
  have hresult : (l.run.runIn q).1 = ending l q := hrun.result.trans (outcome_course l q hlast)
  refine ⟨hrun.leads.deeds, hresult, ?_, ?_, ?_, ?_, ?_⟩
  · intro child
    rw [hresult, ending, ← announced_iff, ← takesLeave_iff]
    cases q.out.printFault? heading.length 1 with
    | some fault => simp
    | none =>
      cases Action.startable q l.command with
      | error fault => simp
      | ok other => cases q.out.printFault? (heading.length + footing.length) 2 <;> simp
  · rw [Process.starts, hrun.leads.deeds, List.filterMap_append, starts_course]
    rfl
  · rw [hrun.leads.children, children_course]
  · rw [hrun.leads.accepted, written_course]
  · intro child stop hchild hstop
    obtain ⟨hannounced, hmade⟩ := (child?_eq_some_iff l q child).mp hchild
    rw [hresult, ending, (announced_iff q).mpr hannounced, hmade] at hstop
    cases hfault : q.out.printFault? (heading.length + footing.length) 2 with
    | none =>
      rw [hfault] at hstop
      cases hstop
    | some fault =>
      rw [hfault] at hstop
      exact ⟨fault, (Except.error.inj hstop).symm, rfl⟩

end Launcher

end DeferredOpen
