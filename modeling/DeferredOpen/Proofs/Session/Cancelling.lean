import DeferredOpen.Proofs.Probe.Firing
import DeferredOpen.Proofs.Session.Agreement

/-!
# What a cancellation reaches

The flags of a session agree with its lineage after any operations, so a timer counts as cancelled
when it has been cancelled through a handle that goes back to it, or while it was run. Its handles
say so from then on, wherever they have been copied and whatever has become of the timer, and
nothing that happens to other timers is noticed. A timer that is cancelled does not fire any more,
and one that is not fires when it is run.
-/

namespace DeferredOpen.Session

variable {s : Session}

/-- After any operations everything comes from where they have taken it. -/
theorem lineage_after (hpending : s.process.pending = []) (ops : List Operation) :
    (s.after ops).lineage = s.lineage.after ops := by
  induction ops generalizing s with
  | nil => rfl
  | cons op ops ih =>
    have hlater : (s.step op).2.process.pending = [] := pending_step hpending op
    rw [after_cons, ih hlater, (step_agrees hpending op).lineage]
    rfl

/-- An operation raises the flag whose timer it cancels, and lowers none. -/
theorem isRaised_step_iff (hpending : s.process.pending = []) (op : Operation) (making : Nat) :
    (s.step op).2.process.flags.isRaised ⟨making⟩ = true ↔
      s.lineage.cancels op = some making ∨ s.process.flags.isRaised ⟨making⟩ = true := by
  rw [Flags.isRaised, Flags.isRaised, (step_agrees hpending op).raised]
  cases s.lineage.cancels op with
  | none => simp
  | some cancelled => simp [@eq_comm Nat cancelled making]

/-- A flag is raised when its timer has been cancelled, and not otherwise. -/
theorem isRaised_after_iff (hpending : s.process.pending = []) (ops : List Operation)
    (making : Nat) :
    (s.after ops).process.flags.isRaised ⟨making⟩ = true ↔
      s.lineage.HasCancelled ops making ∨ s.process.flags.isRaised ⟨making⟩ = true := by
  induction ops generalizing s with
  | nil => simp [Lineage.not_hasCancelled_nil]
  | cons op ops ih =>
    have hlater : (s.step op).2.process.pending = [] := pending_step hpending op
    rw [after_cons, ih hlater, isRaised_step_iff hpending, (step_agrees hpending op).lineage,
      Lineage.hasCancelled_cons_iff, or_left_comm, or_assoc]

theorem lineage_inWorld (w : World) (ops : List Operation) :
    ((inWorld w).after ops).lineage = ({} : Lineage).after ops :=
  lineage_after rfl ops

theorem isRaised_inWorld_iff (w : World) (ops : List Operation) (making : Nat) :
    ((inWorld w).after ops).process.flags.isRaised ⟨making⟩ = true ↔
      ({} : Lineage).HasCancelled ops making := by
  have hdown : (inWorld w).process.flags.isRaised ⟨making⟩ = false := rfl
  have hnothing : (inWorld w).lineage = {} := rfl
  rw [isRaised_after_iff rfl, hdown, hnothing]
  simp

section

variable {making : Nat} {name : String}

/-- A handle tells whether its flag is raised. -/
theorem isCancelled_fst (h : s.lineage.handles.get? name = some making) :
    (s.step (.isCancelled name)).1 = .cancelled (s.process.flags.isRaised ⟨making⟩) := by
  rw [get?_lineage_handles, Option.map_eq_some_iff] at h
  obtain ⟨flag, hflag, rfl⟩ := h
  simp only [step, withNamed, hflag]

theorem exists_timer {made : Making Task} (h : s.lineage.timers.get? name = some made) :
    ∃ timer, s.timers.get? name = some timer ∧ makingOf timer = made := by
  rwa [get?_lineage_timers, Option.map_eq_some_iff] at h

theorem exists_probe {made : Making Path} (h : s.lineage.probes.get? name = some (some made)) :
    ∃ probe timer, s.probes.get? name = some probe ∧ probe.timer = some timer ∧
      makingOf timer = made := by
  rw [get?_lineage_probes, Option.map_eq_some_iff] at h
  obtain ⟨probe, hprobe, hmade⟩ := h
  obtain ⟨timer, htimer, hmaking⟩ := Option.map_eq_some_iff.mp hmade
  exact ⟨probe, timer, hprobe, htimer, hmaking⟩

end

def Task.answer : Task → Answer
  | .give text => .fired text true
  | .panic => .stopped .panicked

theorem timerAction_eq (timer : Timer Task) : timerAction timer = timer.runTask Task.run := by
  rw [timerAction, Timer.runTask]
  congr 1
  funext fired
  cases fired <;> rfl

section

variable {name : String} {timer : Timer Task} {deadline : Nat}

theorem runTimer_of_raised (htimer : s.timers.get? name = some timer)
    (hraised : s.process.flags.isRaised timer.flag = true) (cancelAfter : Option Duration) :
    (s.runTimer name cancelAfter).1 =
      if s.process.world.clock.reading s.process.now + timer.delay.nanos < Instant.limit
      then .notFired else .stopped .panicked := by
  obtain ⟨pending, hstarted⟩ := s.cancelling_eq (some timer.flag) cancelAfter
  let started : Process := { s.process with pending }
  have hran : ((timer.runTask Task.run).runIn started).1 =
      Timer.cancelledEnd (s.process.world.clock.reading s.process.now) timer.delay :=
    (Timer.runTask_of_raised (p := started) hraised Task.run).1
  simp only [started, Timer.cancelledEnd] at hran
  rw [runTimer_eq htimer, hstarted, timerAction_eq]
  by_cases hlt : s.process.world.clock.reading s.process.now + timer.delay.nanos < Instant.limit
  · rw [if_pos hlt] at hran ⊢
    simp only [hran]
  · rw [if_neg hlt] at hran ⊢
    simp only [hran]

theorem runTimer_of_not_raised (hpending : s.process.pending = [])
    (htimer : s.timers.get? name = some timer)
    (hraised : s.process.flags.isRaised timer.flag = false)
    (hdeadline : Instant.after? (s.process.world.clock.reading s.process.now) timer.delay =
      some deadline) :
    (s.runTimer name none).1 = timer.task.answer := by
  have hfired : (Timer.waitIn timer.flag s.process deadline).fired = true :=
    Timer.fired_of_not_raised hraised hpending
  have hended := Timer.add_delay_le_ended hdeadline hfired
  rw [runTimer_eq htimer, timerAction_eq]
  simp only [cancelling, Timer.runTask_of_fired hdeadline hfired Task.run]
  cases timer.task with
  | give text => exact congrArg (Answer.fired text) (decide_eq_true hended)
  | panic => rfl

end

section

variable {name : String} {probe : Probe} {timer : Timer Path} {deadline : Nat} {out : Sink}

/-- The openings are those of the run, and waiting for cancellations adds none. -/
theorem runProbe_openings (hprobe : s.probes.get? name = some probe) (out : Sink)
    (cancelAfter : Option Duration) :
    let started := ((s.writingTo out).cancelling probe.flag? cancelAfter).process
    (s.runProbe name out cancelAfter).2.process.openings =
      (probe.run.runIn started).2.openings := by
  rw [runProbe_eq hprobe]
  simp only [Process.openings, Process.deeds, Process.history_settle]

theorem runProbe_of_raised (hprobe : s.probes.get? name = some probe)
    (htimer : probe.timer = some timer)
    (hraised : s.process.flags.isRaised timer.flag = true)
    (hannounced : Probe.Announced (s.writingTo out).process) (cancelAfter : Option Duration) :
    (∃ printed, (s.runProbe name out cancelAfter).1 =
        .probeRan (Timer.cancelledEnd (s.process.world.clock.reading s.process.now) timer.delay)
          printed .done) ∧
      (s.runProbe name out cancelAfter).2.process.openings = s.process.openings := by
  obtain ⟨pending, hstarted⟩ := (s.writingTo out).cancelling_eq probe.flag? cancelAfter
  let started : Process := { s.process with out, pending }
  obtain ⟨hresult, hopenings⟩ :=
    Probe.run_of_raised (q := started) htimer hannounced hraised
  have hrun : ((s.writingTo out).cancelling probe.flag? cancelAfter).process = started := by
    rw [hstarted]
    rfl
  rw [runProbe_openings hprobe, runProbe_eq hprobe, hrun]
  simp only [hresult]
  exact ⟨⟨_, rfl⟩, hopenings⟩

/-- What a run of a probe comes to that opens its file when its wait is over. -/
structure OpensFile (s : Session) (out : Sink) (file : Path) (ended : Nat)
    (ran : Answer × Session) : Prop where
  openings : ran.2.process.openings =
    s.process.openings ++ [(file, (s.process.world.opens ended file).map fun _ =>
      s.process.world.numbering.pick s.process.held)]
  answer : ∃ result printed, ran.1 = .probeRan result printed .done ∧ result ≠ .ok none ∧
    (Probe.Reported (s.writingTo out).process →
      result = Probe.endingAt (s.writingTo out).process file ended)

theorem runProbe_of_not_raised (hpending : s.process.pending = [])
    (hprobe : s.probes.get? name = some probe) (htimer : probe.timer = some timer)
    (hraised : s.process.flags.isRaised timer.flag = false)
    (hannounced : Probe.Announced (s.writingTo out).process)
    (hdeadline : Instant.after? (s.process.world.clock.reading s.process.now) timer.delay =
      some deadline) :
    ∃ ended, s.process.now + timer.delay.nanos ≤ ended ∧
      s.OpensFile out timer.task ended (s.runProbe name out none) := by
  let started : Process := (s.writingTo out).process
  have hfired : (Timer.waitIn timer.flag started deadline).fired = true :=
    Timer.fired_of_not_raised hraised hpending
  obtain ⟨hopenings, hresult, hreported⟩ :=
    Probe.run_of_fired (q := started) htimer hannounced hdeadline hfired
  have hrun : ((s.writingTo out).cancelling probe.flag? none).process = started := by
    cases probe.flag? <;> rfl
  refine ⟨_, Timer.add_delay_le_ended (q := started) hdeadline hfired, ?_, ?_⟩
  · rw [runProbe_openings hprobe, hrun]
    exact hopenings
  · rw [runProbe_eq hprobe, hrun]
    exact ⟨_, _, rfl, hresult, hreported⟩

end

/-- How a session with a lineage treats the timer of a making. -/
structure Treats (s : Session) (g : Lineage) (making : Nat) (cancelled : Prop) : Prop where
  /-- Whoever has a handle is told whether the timer was cancelled. -/
  asked : ∀ handle, g.handles.get? handle = some making →
    ∃ answer, (s.step (.isCancelled handle)).1 = .cancelled answer ∧ (answer = true ↔ cancelled)
  /-- A cancelled timer is cancelled for all handles, and for all time. -/
  stays : cancelled → ∀ more handle, (g.after more).handles.get? handle = some making →
    ((s.after more).step (.isCancelled handle)).1 = .cancelled true
  /-- What does not cancel the timer itself makes no difference to any handle. -/
  unchanged : ∀ op, g.cancels op ≠ some making → ∀ handle later,
    g.handles.get? handle = some making → (g.step op).handles.get? later = some making →
    ((s.step op).2.step (.isCancelled later)).1 = (s.step (.isCancelled handle)).1
  /-- A run of the timer gives nothing if it was cancelled, and runs the task if it was not. -/
  timer : ∀ name made, g.timers.get? name = some made → made.number = making →
    (Instant.after? (s.process.world.clock.reading s.process.now) made.delay).isSome →
      (cancelled → ∀ cancelAfter, (s.step (.runTimer name cancelAfter)).1 = .notFired) ∧
      (¬ cancelled → (s.step (.runTimer name none)).1 = made.task.answer)
  /-- The same for a probe, in a sink that takes its announcement: its task is to open the file. -/
  probe : ∀ name made, g.probes.get? name = some (some made) → made.number = making →
    ∀ out, Probe.Announced (s.writingTo out).process →
      (Instant.after? (s.process.world.clock.reading s.process.now) made.delay).isSome →
      (cancelled → ∀ cancelAfter,
        (∃ printed, (s.step (.runProbe name out cancelAfter)).1 =
          .probeRan (.ok none) printed .done) ∧
        (s.step (.runProbe name out cancelAfter)).2.process.openings = s.process.openings) ∧
      (¬ cancelled → ∃ ended, s.process.now + made.delay.nanos ≤ ended ∧
        s.OpensFile out made.task ended (s.step (.runProbe name out none)))

/-- Whatever has been done in a session: the timer of a making is treated as cancelled just if one
of the operations has cancelled it through a handle that goes back to the same making, or while it
was run. The making that comes next has not been cancelled. -/
theorem treats_by_lineage (w : World) (ops : List Operation) (making : Nat) :
    let begun : Lineage := {}
    ((inWorld w).after ops).Treats (begun.after ops) making (begun.HasCancelled ops making) ∧
      ¬ begun.HasCancelled ops (begun.after ops).makings := by
  intro begun
  refine ⟨?_, Lineage.not_hasCancelled_next .begin ops⟩
  have hlineage := lineage_inWorld w ops
  have hraised := isRaised_inWorld_iff w ops making
  have hpending : ((inWorld w).after ops).process.pending = [] := pending_after rfl ops
  generalize (inWorld w).after ops = s at hlineage hraised hpending ⊢
  rw [← hlineage, ← hraised]
  constructor
  · intro handle hhandle
    exact ⟨_, isCancelled_fst hhandle, Iff.rfl⟩
  · intro hcancelled more handle hhandle
    rw [← lineage_after hpending] at hhandle
    rw [isCancelled_fst hhandle, (isRaised_after_iff hpending more making).mpr (.inr hcancelled)]
  · intro op hother handle later hhandle hlater
    rw [← (step_agrees hpending op).lineage] at hlater
    have hsame := isRaised_step_iff hpending op making
    rw [or_iff_right hother, Bool.coe_iff_coe] at hsame
    rw [isCancelled_fst hhandle, isCancelled_fst hlater, hsame]
  · rintro name made hmade rfl hsome
    obtain ⟨timer, htimer, rfl⟩ := exists_timer hmade
    obtain ⟨deadline, hdeadline⟩ := Option.isSome_iff_exists.mp hsome
    rw [Bool.not_eq_true]
    constructor
    · intro hraised cancelAfter
      have hlt : _ + timer.delay.nanos < _ := Instant.lt_of_after? hdeadline
      exact (runTimer_of_raised htimer hraised cancelAfter).trans (if_pos hlt)
    · intro hraised
      exact runTimer_of_not_raised hpending htimer hraised hdeadline
  · rintro name made hmade rfl out hannounced hsome
    obtain ⟨probe, timer, hprobe, htimer, rfl⟩ := exists_probe hmade
    obtain ⟨deadline, hdeadline⟩ := Option.isSome_iff_exists.mp hsome
    rw [Bool.not_eq_true]
    constructor
    · intro hraised cancelAfter
      have hlt : _ + timer.delay.nanos < _ := Instant.lt_of_after? hdeadline
      have hanswer := runProbe_of_raised hprobe htimer hraised hannounced cancelAfter
      rwa [Timer.cancelledEnd, if_pos hlt] at hanswer
    · intro hraised
      exact runProbe_of_not_raised hpending hprobe htimer hraised hannounced hdeadline

/-- A copy of a handle outlives the handle and the timer, and does not mind the timer that has taken
the name. -/
theorem treats_by_lineage_of_replaced_timer :
    let w : World := .installed {} []
    let delay := Duration.ofMilliseconds 5
    let ops : List Operation :=
      [.makeTimer "t" delay (.give "old"), .timerHandle "t" "h", .copyHandle "h" "k",
        .makeTimer "t" delay (.give "new"), .timerHandle "t" "g", .cancel "h", .drop "h"]
    let s := (inWorld w).after ops
    (s.step (.isCancelled "k")).1 = .cancelled true ∧
    (s.step (.isCancelled "g")).1 = .cancelled false ∧
    (s.step (.runTimer "t" none)).1 = .fired "new" true := by
  intro w delay ops s
  have hold := (treats_by_lineage w ops 0).1
  have hnew := (treats_by_lineage w ops 1).1
  have hcancelled : ({} : Lineage).HasCancelled ops 0 := by decide
  have huncancelled : ¬ ({} : Lineage).HasCancelled ops 1 := by decide
  obtain ⟨answer, hanswer, hiff⟩ := hnew.asked "g" (by decide)
  have hfalse : answer = false := by
    rw [← Bool.not_eq_true, hiff]
    exact huncancelled
  have hruns := hnew.timer "t" ⟨1, delay, .give "new"⟩ rfl rfl (by decide)
  refine ⟨hold.stays hcancelled [] "k" (by decide), ?_, hruns.2 huncancelled⟩
  rw [hanswer, hfalse]

end DeferredOpen.Session
