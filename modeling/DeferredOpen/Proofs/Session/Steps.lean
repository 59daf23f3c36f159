import DeferredOpen.Proofs.Probe.Taking
import DeferredOpen.Proofs.Process.Growth
import DeferredOpen.Proofs.Session.Beside

/-!
# What one operation changes

Whatever is done in a session, the history of its process only grows, no cancellation is left for
later, and the probe under a name stays what it is, unless the operation runs it, replaces it or
drops it. A run leaves it spent.
-/

namespace DeferredOpen

namespace Process

/-- When all cancellations have been made nothing has changed but the time and the flags. -/
theorem settle_eq (p : Process) :
    ∃ now flags, p.settle = { p with pending := [], now, flags } := by
  unfold settle
  generalize hq : ({ p with pending := [] } : Process) = q
  have hsame : ∃ now flags, q = { p with pending := [], now, flags } := ⟨p.now, p.flags, hq.symm⟩
  clear hq
  induction p.pending generalizing q with
  | nil => exact hsame
  | cons c rest ih =>
    obtain ⟨now, flags, rfl⟩ := hsame
    exact ih _ ⟨_, _, rfl⟩

theorem history_settle (p : Process) : p.settle.history = p.history := by
  obtain ⟨now, flags, hsettle⟩ := p.settle_eq
  rw [hsettle]

theorem pending_settle (p : Process) : p.settle.pending = [] := by
  obtain ⟨now, flags, hsettle⟩ := p.settle_eq
  rw [hsettle]

/-- Without a cancellation to come there is nothing to wait for. -/
theorem settle_of_pending_nil {p : Process} (h : p.pending = []) : p.settle = p := by
  obtain ⟨⟩ := p
  obtain rfl := h
  rfl

end Process

namespace Session

namespace Operation

def openings : Operation → Nat
  | .openFile _ | .runProbe _ _ _ | .probeOnce _ _ => 1
  | _ => 0

def runs (name : String) : Operation → Bool
  | .runProbe other _ _ => other = name
  | _ => false

/-- Whether an operation leaves a probe under its name, and does not put another one there. -/
def keeps (name : String) : Operation → Bool
  | .makeProbe other _ | .drop other => other ≠ name
  | _ => true

end Operation

def after (s : Session) (ops : List Operation) : Session := ops.foldl (fun s op => (s.step op).2) s

@[simp] theorem after_nil (s : Session) : s.after [] = s := rfl

@[simp] theorem after_cons (s : Session) (op : Operation) (ops : List Operation) :
    s.after (op :: ops) = (s.step op).2.after ops := rfl

theorem after_append (s : Session) (ops more : List Operation) :
    s.after (ops ++ more) = (s.after ops).after more := List.foldl_append

variable {counted : Event → Bool} {n : Nat}

theorem changeFiles_grows (s : Session) (change : Files → Files) :
    s.process.Grows counted 0 (s.changeFiles change).process := .of_same rfl rfl

theorem reap_grows (s : Session) (count : Nat) :
    s.process.Grows counted 0 (s.reap count).2.process := by
  obtain ⟨files, hfiles⟩ := s.reap_snd count
  rw [hfiles]
  exact s.changeFiles_grows _

/-- A run with a sink of its own and a cancellation that others make in the meantime. -/
theorem settle_grows {p q : Process} {out : Sink} {pending : List (Nat × Flag)}
    (hp : p.pending = []) (h : Process.Grows counted n { p with out, pending } q) :
    p.Grows counted n q.settle := by
  obtain ⟨-, events, hevents, hn⟩ := h
  refine ⟨?_, events, ?_, hn⟩
  · rw [Process.pending_settle, hp]
  · rw [Process.history_settle]
    exact hevents

theorem cancelling_eq (s : Session) (flag : Option Flag) (after : Option Duration) :
    ∃ pending, s.cancelling flag after = { s with process := { s.process with pending } } := by
  cases flag with
  | none => exact ⟨s.process.pending, rfl⟩
  | some flag =>
    cases after with
    | none => exact ⟨s.process.pending, rfl⟩
    | some delay => exact ⟨_, rfl⟩

theorem runProbe_grows {s : Session} (h : s.process.pending = []) (name : String) (out : Sink)
    (cancelAfter : Option Duration) :
    s.process.Grows Event.isOpening 1 (s.runProbe name out cancelAfter).2.process := by
  unfold runProbe
  cases s.probes.get? name with
  | none => exact (Process.Grows.refl _ _).mono (Nat.zero_le 1)
  | some probe =>
    obtain ⟨pending, hpending⟩ := (s.writingTo out).cancelling_eq probe.flag? cancelAfter
    simp only [probe.runTaking_eq, hpending]
    exact settle_grows h (probe.run_grows _)

theorem timerAction_grows (timer : Timer Task) :
    (timerAction timer).Grows Event.isOpening 0 := by
  refine .quiet (timer.run_grows (fun _ => rfl) fun _ => rfl) fun fired => ?_
  cases fired with
  | none => exact .pure _
  | some task =>
    cases task with
    | give text => exact .map _ (.pure _)
    | panic => exact .map _ .panic

theorem runTimer_grows {s : Session} (h : s.process.pending = []) (name : String)
    (cancelAfter : Option Duration) :
    s.process.Grows Event.isOpening 0 (s.runTimer name cancelAfter).2.process := by
  unfold runTimer
  cases s.timers.get? name with
  | none => exact .refl _ _
  | some timer =>
    obtain ⟨pending, hpending⟩ :=
      ({ s with timers := s.timers.erase name }).cancelling_eq (some timer.flag) cancelAfter
    dsimp only
    rw [hpending]
    let started : Process := { s.process with out := s.process.out, pending }
    have hran : started.Grows Event.isOpening 0 ((timerAction timer).runIn started).2 :=
      timerAction_grows timer started
    exact settle_grows h hran

/-- Waiting for children and reading what they have recorded adds nothing to a history. -/
theorem takeRecorded_grows {p : Process} {s : Session} (h : p.Grows counted n s.process)
    (count : Nat) : p.Grows counted n (s.reap count).2.takeRecorded.2.process :=
  (h.trans (s.reap_grows count)).trans ((s.reap count).2.changeFiles_grows _)

theorem start_grows (s : Session) (c : Command) :
    s.process.Grows Event.isOpening 0 (s.start c).2.process := by
  have hstart : s.process.Grows Event.isOpening 0 (s.runIn (Action.start c)).2.process :=
    Action.Grows.start c (fun _ => rfl) (fun _ => rfl) s.process
  unfold start
  cases hrun : s.runIn (Action.start c) with
  | mk result started =>
    rw [hrun] at hstart
    cases result with
    | error stop => exact hstart
    | ok child => exact takeRecorded_grows hstart _

theorem runLauncher_grows (s : Session) (name : String) (out : Sink) :
    s.process.Grows Event.isOpening 0 (s.runLauncher name out).2.process := by
  unfold runLauncher
  cases s.launchers.get? name with
  | none => exact .refl _ _
  | some launcher =>
    have hout : s.process.Grows Event.isOpening 0 (s.writingTo out).process := .of_same rfl rfl
    have hran : s.process.Grows Event.isOpening 0
        ((s.writingTo out).runIn launcher.run).2.process :=
      hout.trans (launcher.run_grows (fun _ => rfl) rfl (fun _ _ => rfl) (fun _ => rfl) _)
    exact takeRecorded_grows hran _

theorem makeProbe_grows (s : Session) (name : String) (source : Settings.Source) :
    s.process.Grows Event.isOpening 0 (s.makeProbe name source).2.process := by
  unfold makeProbe
  cases source.settings with
  | error stop => exact .refl _ _
  | ok settings => exact .of_same rfl rfl

theorem probeOnce_grows (s : Session) (source : Settings.Source) (out : Sink) :
    s.process.Grows Event.isOpening 1 (s.probeOnce source out).2.process := by
  unfold probeOnce
  cases source.settings with
  | error stop => exact (Process.Grows.refl _ _).mono (Nat.zero_le 1)
  | ok settings =>
    have hout : s.process.Grows Event.isOpening 0 (s.writingTo out).process := .of_same rfl rfl
    exact hout.trans (Probe.runWith_grows settings (s.writingTo out).process)

/-- What is done with a thing in a table adds nothing to a history, if no answer does. -/
theorem withNamed_grows {s : Session} {thing : Option α} {answer : α → Answer × Session}
    (h : ∀ a, s.process.Grows counted 0 (answer a).2.process) :
    s.process.Grows counted 0 (s.withNamed thing answer).2.process := by
  cases thing with
  | none => exact .refl _ _
  | some a => exact h a

/-- One operation adds to the history, and tries no more openings than an operation of its kind
may. -/
theorem step_grows {s : Session} (h : s.process.pending = []) (op : Operation) :
    s.process.Grows Event.isOpening op.openings (s.step op).2.process := by
  cases op with
  | add path entry => exact s.changeFiles_grows _
  | erase path => exact s.changeFiles_grows _
  | rename source target => exact s.changeFiles_grows _
  | enter path => exact s.changeFiles_grows _
  | openFile path =>
    have hopen : s.process.Grows Event.isOpening 1 (s.runIn (Action.openFile path)).2.process :=
      Action.Grows.openFile path (fun _ => rfl) s.process
    simp only [step]
    cases hrun : s.runIn (Action.openFile path) with
    | mk result opened =>
      rw [hrun] at hopen
      cases result <;> exact hopen
  | makeProbe name source => exact s.makeProbe_grows name source
  | probeState name => exact withNamed_grows fun _ => .refl _ _
  | probeHandle name handle =>
    refine withNamed_grows fun probe => ?_
    cases probe.flag? <;> exact .refl _ _
  | runProbe name out cancelAfter => exact runProbe_grows h name out cancelAfter
  | probeOnce source out => exact s.probeOnce_grows source out
  | makeTimer name delay task => exact .of_same rfl rfl
  | timerDelay name => exact withNamed_grows fun _ => .refl _ _
  | timerHandle name handle => exact withNamed_grows fun _ => .refl _ _
  | runTimer name cancelAfter => exact runTimer_grows h name cancelAfter
  | copyHandle name handle => exact withNamed_grows fun _ => .refl _ _
  | cancel name => exact withNamed_grows fun _ => .of_same rfl rfl
  | isCancelled name => exact withNamed_grows fun _ => .refl _ _
  | drop name => exact .refl _ _
  | start command => exact s.start_grows command
  | makeLauncher name command => exact .refl _ _
  | runLauncher name out => exact s.runLauncher_grows name out

/-- Between operations there is no cancellation to come. -/
theorem pending_step {s : Session} (h : s.process.pending = []) (op : Operation) :
    (s.step op).2.process.pending = [] := (step_grows h op).pending.trans h

theorem pending_after {s : Session} (h : s.process.pending = []) (ops : List Operation) :
    (s.after ops).process.pending = [] := by
  induction ops generalizing s with
  | nil => exact h
  | cons op ops ih => exact ih (pending_step h op)

/-- Nor is there one when a session has just answered to an operation. -/
theorem pending_of_step {w : World} {earlier : List Operation} {op : Operation} {answer : Answer}
    {made : Session} (h : ((inWorld w).after earlier).step op = (answer, made)) :
    made.process.pending = [] := by
  have hearlier : ((inWorld w).after earlier).process.pending = [] := pending_after rfl earlier
  have hmade := pending_step hearlier op
  rwa [h] at hmade

/-- A run of the timer under a name, told by the run of its action. -/
theorem runTimer_eq {s : Session} {name : String} {timer : Timer Task}
    (htimer : s.timers.get? name = some timer) (cancelAfter : Option Duration) :
    let started := (s.cancelling (some timer.flag) cancelAfter).process
    let ran := (timerAction timer).runIn started
    let answer : Answer :=
      match ran.1 with
      | .error stop => .stopped stop
      | .ok none => .notFired
      | .ok (some text) => .fired text (s.process.now + timer.delay.nanos ≤ ran.2.now)
    s.runTimer name cancelAfter =
      (answer, { s with timers := s.timers.erase name, process := ran.2.settle }) := by
  rw [runTimer, htimer]
  cases cancelAfter <;> rfl

/-- A run of the probe under a name, told by the run of the probe. It leaves the probe spent. -/
theorem runProbe_eq {s : Session} {name : String} {probe : Probe}
    (hprobe : s.probes.get? name = some probe) (out : Sink) (cancelAfter : Option Duration) :
    let started := ((s.writingTo out).cancelling probe.flag? cancelAfter).process
    let ran := probe.run.runIn started
    s.runProbe name out cancelAfter =
      (.probeRan ran.1 ran.2.out .done,
        { s with probes := s.probes.insert name probe.spent, process := ran.2.settle }) := by
  obtain ⟨pending, hpending⟩ := (s.writingTo out).cancelling_eq probe.flag? cancelAfter
  rw [runProbe, hprobe]
  simp only [probe.runTaking_eq, hpending]
  rfl

theorem probes_runTimer (s : Session) (name : String) (cancelAfter : Option Duration) :
    (s.runTimer name cancelAfter).2.probes = s.probes := by
  cases htimer : s.timers.get? name with
  | none => rw [runTimer, htimer]
  | some timer => rw [runTimer_eq htimer]

theorem probes_probeOnce (s : Session) (source : Settings.Source) (out : Sink) :
    (s.probeOnce source out).2.probes = s.probes := by
  unfold probeOnce
  cases source.settings <;> rfl

theorem get?_makeProbe_ne {s : Session} {name other : String} (h : other ≠ name)
    (source : Settings.Source) :
    (s.makeProbe name source).2.probes.get? other = s.probes.get? other := by
  unfold makeProbe
  cases source.settings with
  | error stop => rfl
  | ok settings => exact Table.get?_insert_ne _ _ h

/-- A run leaves the probe spent, whatever comes of the run. -/
theorem get?_runProbe_self (s : Session) (name : String) (out : Sink)
    (cancelAfter : Option Duration) :
    (s.runProbe name out cancelAfter).2.probes.get? name =
      (s.probes.get? name).map Probe.spent := by
  cases hprobe : s.probes.get? name with
  | none =>
    rw [runProbe, hprobe]
    exact hprobe
  | some probe =>
    rw [runProbe_eq hprobe]
    exact Table.get?_insert_self _ _ _

theorem get?_runProbe_ne {s : Session} {name other : String} (h : other ≠ name) (out : Sink)
    (cancelAfter : Option Duration) :
    (s.runProbe name out cancelAfter).2.probes.get? other = s.probes.get? other := by
  cases hprobe : s.probes.get? name with
  | none => rw [runProbe, hprobe]
  | some probe =>
    rw [runProbe_eq hprobe]
    exact Table.get?_insert_ne _ _ h

/-- One operation leaves a probe as it is, or spent if it is a run of that probe. -/
theorem get?_step {name : String} {op : Operation} (hkeeps : op.keeps name = true) (s : Session) :
    (s.step op).2.probes.get? name =
      if op.runs name then (s.probes.get? name).map Probe.spent else s.probes.get? name := by
  have hsame (h : (s.step op).2.probes = s.probes) :
      (s.step op).2.probes.get? name = s.probes.get? name := by rw [h]
  cases op with
  | add | erase | rename | enter | openFile | probeState | timerDelay | isCancelled | start
  | runLauncher => exact hsame (s.step_beside rfl).probes
  | makeProbe other source =>
    have hne : other ≠ name := of_decide_eq_true hkeeps
    exact get?_makeProbe_ne hne.symm source
  | probeHandle other handle =>
    refine hsame (withNamed_keeps Session.probes fun probe => ?_)
    cases probe.flag? <;> rfl
  | runProbe other out cancelAfter =>
    by_cases hother : other = name
    · subst hother
      simp only [Operation.runs, decide_true, if_true]
      exact s.get?_runProbe_self other out cancelAfter
    · simp only [Operation.runs, hother, decide_false]
      exact get?_runProbe_ne (Ne.symm hother) out cancelAfter
  | probeOnce source out => exact hsame (s.probes_probeOnce source out)
  | makeTimer other delay task => rfl
  | timerHandle other handle => exact hsame (withNamed_keeps Session.probes fun _ => rfl)
  | runTimer other cancelAfter => exact hsame (s.probes_runTimer other cancelAfter)
  | copyHandle other handle => exact hsame (withNamed_keeps Session.probes fun _ => rfl)
  | cancel other => exact hsame (withNamed_keeps Session.probes fun _ => rfl)
  | drop other =>
    have hne : other ≠ name := of_decide_eq_true hkeeps
    exact Table.get?_erase_ne _ hne.symm
  | makeLauncher other command => rfl

end Session

end DeferredOpen
