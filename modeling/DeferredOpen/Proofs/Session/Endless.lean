import DeferredOpen.Proofs.Session.Cancelling

/-!
# Cancelled timers and the end of time

A run fixes its deadline before it looks at its flag. So a timer that was cancelled before it is run
comes to nothing only while its deadline can be told; where the delay leads past the end of time the
run breaks. In neither case is the task touched.
-/

namespace DeferredOpen.Session

/-- What the runs of a making come to that was cancelled before. -/
structure RunsCancelled (s : Session) (g : Lineage) (making : Nat) : Prop where
  timer : ∀ name made, g.timers.get? name = some made → made.number = making → ∀ cancelAfter,
    (s.step (.runTimer name cancelAfter)).1 =
      if s.process.world.clock.reading s.process.now + made.delay.nanos < Instant.limit
      then .notFired else .stopped .panicked
  /-- A probe whose announcement is taken leaves its file alone. -/
  probe : ∀ name made, g.probes.get? name = some (some made) → made.number = making →
    ∀ out cancelAfter, Probe.Announced (s.writingTo out).process →
      (∃ printed, (s.step (.runProbe name out cancelAfter)).1 =
        .probeRan (if s.process.world.clock.reading s.process.now + made.delay.nanos < Instant.limit
          then .ok none else .error .panicked) printed .done) ∧
      (s.step (.runProbe name out cancelAfter)).2.process.openings = s.process.openings
  /-- Whatever the task of a timer is, its run does nothing. -/
  task : ∀ {α β : Type} (delay : Duration) (task : α) (execute : α → Action β),
    let ran := ((Timer.mk delay ⟨making⟩ task).runTask execute).runIn s.process
    ran.2.deeds = s.process.deeds ∧
      ran.1 = if s.process.world.clock.reading s.process.now + delay.nanos < Instant.limit
        then .ok none else .error .panicked

/-- A timer that is cancelled before it is run gives nothing if its deadline can be told, and breaks
otherwise, with any delay and after anything else that was done. Its task is left alone in both
cases. -/
theorem cancelled_run_breaks_iff_endless (w : World) {ops : List Operation} {making : Nat}
    (h : ({} : Lineage).HasCancelled ops making) :
    ((inWorld w).after ops).RunsCancelled (({} : Lineage).after ops) making := by
  rw [← isRaised_inWorld_iff w] at h
  rw [← lineage_inWorld w]
  constructor
  · rintro name made hmade rfl cancelAfter
    obtain ⟨timer, htimer, rfl⟩ := exists_timer hmade
    exact runTimer_of_raised htimer h cancelAfter
  · rintro name made hmade rfl out cancelAfter hannounced
    obtain ⟨probe, timer, hprobe, htimer, rfl⟩ := exists_probe hmade
    exact runProbe_of_raised hprobe htimer h hannounced cancelAfter
  · intro α β delay task execute
    obtain ⟨hresult, hdeeds⟩ := Timer.runTask_of_raised (t := ⟨delay, ⟨making⟩, task⟩) h execute
    exact ⟨hdeeds, hresult⟩

/-- The longest delay whose deadline can be told from the beginning of the clock. -/
theorem cancelled_run_breaks_iff_endless_of_last_delay :
    let delay : Duration := ⟨Instant.limit - 1⟩
    let ops : List Operation :=
      [.makeTimer "t" delay (.give "late"), .timerHandle "t" "h", .cancel "h"]
    let s := (inWorld (.installed {} [])).after ops
    ({} : Lineage).HasCancelled ops 0 ∧ (s.step (.runTimer "t" none)).1 = .notFired := by
  intro delay ops s
  have hcancelled : ({} : Lineage).HasCancelled ops 0 := by decide
  have hruns := cancelled_run_breaks_iff_endless (.installed {} []) hcancelled
  have hanswer := hruns.timer "t" ⟨0, delay, .give "late"⟩ rfl rfl none
  exact ⟨hcancelled, hanswer.trans (if_pos (by decide))⟩

/-- With the longest delay that there is, a timer and a probe that were cancelled break. -/
theorem cancelled_run_of_longest_delay :
    let delay : Duration := .ofParts 18446744073709551615 999999999
    let ops : List Operation :=
      [.makeTimer "t" delay (.give "late"), .timerHandle "t" "h", .cancel "h",
        .makeProbe "p" (.given { delay }), .probeHandle "p" "k", .cancel "k"]
    let s := (inWorld (.installed {} [])).after ops
    ({} : Lineage).HasCancelled ops 0 ∧ (s.step (.runTimer "t" none)).1 = .stopped .panicked ∧
      ({} : Lineage).HasCancelled ops 1 ∧
      ∃ printed, (s.step (.runProbe "p" {} none)).1 =
        .probeRan (.error .panicked) printed .done := by
  intro delay ops s
  have hlate : ¬ 0 + delay.nanos < Instant.limit := by decide
  refine ⟨by decide, ?_, by decide, ?_⟩
  · have htimer : s.timers.get? "t" = some ⟨delay, ⟨0⟩, .give "late"⟩ := rfl
    exact (runTimer_of_raised htimer rfl none).trans (if_neg hlate)
  · have hprobe : s.probes.get? "p" = some (.fresh { delay } ⟨1⟩) := rfl
    have hannounced : Probe.Announced (s.writingTo {}).process := ⟨rfl, rfl⟩
    obtain ⟨⟨printed, hanswer⟩, -⟩ := runProbe_of_raised hprobe rfl rfl hannounced none
    have hbreaks : (Timer.cancelledEnd 0 delay : Except Stop (Option Descriptor)) =
        .error .panicked := if_neg hlate
    exact ⟨printed, hanswer.trans (congrArg (Answer.probeRan · printed .done) hbreaks)⟩

end DeferredOpen.Session
