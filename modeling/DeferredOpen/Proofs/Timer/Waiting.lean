import DeferredOpen.Proofs.Process.Steps
import DeferredOpen.Timer.Basic

/-!
# How a wait ends

A wait goes from look to look, so its end is that of its last look: a timer that fires has read a
time at or past the deadline. For the run around it a wait is one step, which ends the run where
the timer was cancelled.
-/

namespace DeferredOpen

theorem Instant.eq_of_after? {t deadline : Nat} {d : Duration} (h : after? t d = some deadline) :
    deadline = t + d.nanos := by
  unfold after? at h
  split at h
  · exact (Option.some.inj h).symm
  · cases h

theorem Instant.lt_of_after? {t deadline : Nat} {d : Duration} (h : after? t d = some deadline) :
    t + d.nanos < limit := by
  unfold after? at h
  split at h
  · assumption
  · cases h

theorem Instant.not_lt_of_after? {t : Nat} {d : Duration} (h : after? t d = none) :
    ¬ t + d.nanos < limit := by
  unfold after? at h
  split at h
  · cases h
  · assumption

namespace Timer

theorem Look.le_of_verdict_due {deadline : Nat} {look : Look} (h : look.verdict deadline = .due) :
    deadline ≤ look.now := by
  unfold verdict at h
  split at h
  · cases h
  · split at h
    · assumption
    · cases h

theorem Look.unraised_of_verdict_due {deadline : Nat} {look : Look}
    (h : look.verdict deadline = .due) : look.cancelled = false := by
  unfold verdict at h
  split at h
  · cases h
  · rename_i hunraised
    exact Bool.eq_false_iff.mpr hunraised

theorem Look.cancelled_of_verdict {deadline : Nat} {look : Look}
    (h : look.verdict deadline = .cancelled) : look.cancelled = true := by
  unfold verdict at h
  split at h
  · assumption
  · split at h <;> cases h

/-- A timer fires at the deadline or later. -/
theorem le_ended_of_fired {clock : Clock} {raised : Nat → Bool} {deadline now : Nat}
    (h : (wait clock raised deadline now).fired = true) :
    deadline ≤ (wait clock raised deadline now).ended := by
  fun_induction wait clock raised deadline now with
  | case1 now hv => cases h
  | case2 now hv => exact Look.le_of_verdict_due hv
  | case3 now length hv later ih => exact ih h

/-- A wait ends with a look, and the timer fires just if the flag is down at that look. -/
theorem wait_last_look (clock : Clock) (raised : Nat → Bool) (deadline now : Nat) :
    ∃ seen, now ≤ seen ∧ clock.reading seen = (wait clock raised deadline now).ended ∧
      raised seen = !(wait clock raised deadline now).fired := by
  fun_induction wait clock raised deadline now with
  | case1 now hv => exact ⟨now, Nat.le_refl now, rfl, Look.cancelled_of_verdict hv⟩
  | case2 now hv => exact ⟨now, Nat.le_refl now, rfl, Look.unraised_of_verdict_due hv⟩
  | case3 now length hv later ih =>
    obtain ⟨seen, hle, hended, hraised⟩ := ih
    have hread := clock.le_reading now
    have hwake := clock.le_waking (clock.reading now) length
    exact ⟨seen, by omega, hended, hraised⟩

/-- A timer that nobody cancels fires. -/
theorem fired_of_never_raised (clock : Clock) (deadline now : Nat) :
    (wait clock (fun _ => false) deadline now).fired = true := by
  obtain ⟨seen, -, -, hraised⟩ := wait_last_look clock (fun _ => false) deadline now
  simpa using hraised

/-- On an exact clock a timer that nobody cancels fires at its deadline. -/
theorem ended_of_exact {deadline now : Nat} (h : now ≤ deadline) :
    (wait .exact (fun _ => false) deadline now).ended = deadline := by
  fun_induction wait .exact (fun _ => false) deadline now with
  | case1 now hv => exact absurd (Look.cancelled_of_verdict hv) Bool.false_ne_true
  | case2 now hv =>
    have hdue : deadline ≤ now := Look.le_of_verdict_due hv
    exact Nat.le_antisymm h hdue
  | case3 now length hv later ih =>
    obtain ⟨hlt, hlength⟩ := Look.lt_of_verdict_sleep hv
    have hwaking : Clock.exact.waking (Clock.exact.reading now) length = now + length := rfl
    have hle : now + length ≤ deadline := by
      have hnow : (lookAt .exact (fun _ => false) now).now = now := rfl
      omega
    exact ih (hwaking ▸ hle)

/-- The wait for a deadline in a process, for as long as a flag is not raised. -/
def waitIn (flag : Flag) (q : Process) (deadline : Nat) : Wait :=
  wait q.world.clock (q.raisedAt flag) deadline (q.world.clock.reading q.now)

section

variable {flag : Flag} {q : Process} {deadline : Nat}

/-- Where a timer does not fire, its flag has been raised by the end of the wait. -/
theorem exists_raised_of_not_fired (h : (waitIn flag q deadline).fired = false) :
    ∃ t ≤ (waitIn flag q deadline).ended, q.raisedAt flag t = true := by
  obtain ⟨seen, -, hended, hraised⟩ := wait_last_look q.world.clock (q.raisedAt flag) deadline
    (q.world.clock.reading q.now)
  have hread := q.world.clock.le_reading seen
  refine ⟨seen, Nat.le_trans hread (Nat.le_of_eq hended), ?_⟩
  rw [hraised]
  exact congrArg not h

/-- A timer whose flag is down until its wait is over fires. -/
theorem fired_of_down (h : ∀ t ≤ (waitIn flag q deadline).ended, q.raisedAt flag t = false) :
    (waitIn flag q deadline).fired = true := by
  cases hfired : (waitIn flag q deadline).fired with
  | true => rfl
  | false =>
    obtain ⟨t, ht, hup⟩ := exists_raised_of_not_fired hfired
    rw [h t ht] at hup
    cases hup

end

/-- A timer that fires does so when its delay has passed. -/
theorem add_delay_le_ended {delay : Duration} {flag : Flag} {q : Process} {deadline : Nat}
    (hdeadline : Instant.after? (q.world.clock.reading q.now) delay = some deadline)
    (hfired : (waitIn flag q deadline).fired = true) :
    q.now + delay.nanos ≤ (waitIn flag q deadline).ended := by
  have hread := q.world.clock.le_reading q.now
  have hdue := Instant.eq_of_after? hdeadline
  have hended : deadline ≤ (waitIn flag q deadline).ended := le_ended_of_fired hfired
  omega

end Timer

def Process.waited (q : Process) (w : Timer.Wait) : Process :=
  { q with now := w.ended, history := q.history ++ w.sleeps.map Event.slept }

/-- Waiting for a timer; a cancelled one ends the run without a value. -/
def Step.waiting (w : Timer.Wait) : Step (Option α) where
  deeds := w.sleeps.map Event.slept
  ended := w.ended
  ending := if w.fired then none else some (.ok none)

/-- A wait hands over to the rest when the timer fires. -/
theorem Step.trace_waiting (w : Timer.Wait) (rest : List (Step (Option α))) :
    trace (waiting w :: rest) =
      w.sleeps.map Event.slept ++ if w.fired then trace rest else [] := by
  rw [trace_cons]
  cases hfired : w.fired <;> simp [waiting, hfired]

theorem Event.written_slept (sleeps : List Timer.Sleep) :
    (sleeps.map Event.slept).flatMap Event.written = [] := by
  simp [Event.written]

theorem Event.child?_slept (sleeps : List Timer.Sleep) :
    (sleeps.map Event.slept).filterMap Event.child? = [] := by
  simp [Event.child?]

theorem Event.filter_slept (sleeps : List Timer.Sleep) :
    (sleeps.map Event.slept).filter Event.isDeed = sleeps.map Event.slept := by
  rw [List.filter_eq_self]
  intro e he
  obtain ⟨sleep, -, rfl⟩ := List.mem_map.mp he
  rfl

theorem Process.leads_waited (q : Process) (w : Timer.Wait) :
    q.Leads (q.waited w) (w.sleeps.map Event.slept) w.ended where
  world := rfl
  now := rfl
  deeds := by rw [deeds, waited, List.filter_append, Event.filter_slept]; rfl
  accepted := by rw [Event.written_slept, List.append_nil]; rfl
  children := by rw [Event.child?_slept, List.append_nil]; rfl

namespace Timer

def runTask (t : Timer α) (execute : α → Action β) : Action (Option β) := do
  match ← t.run with
  | some task => some <$> execute task
  | none => pure none

/-- The process in which a timer fires that has waited. -/
def fired (t : Timer α) (p : Process) (w : Wait) : Process :=
  (p.waited w).after (.logged (.timerFired t.delay))

section

variable {t : Timer α} {p : Process} {deadline : Nat}

/-- What comes of a run in a process is up to its wait. -/
theorem run_runIn
    (hdeadline : Instant.after? (p.world.clock.reading p.now) t.delay = some deadline) :
    t.run.runIn p =
      let w := waitIn t.flag p deadline
      if w.fired then (.ok (some t.task), t.fired p w)
      else (.ok none, (p.waited w).after (.logged .timerCancelled)) := by
  have hawait : t.await.runIn p =
      (.ok (waitIn t.flag p deadline).fired, p.waited (waitIn t.flag p deadline)) := by
    simp only [await, Action.runIn, hdeadline]
    rfl
  rw [run, Action.runIn_bind_ok hawait]
  dsimp only
  cases (waitIn t.flag p deadline).fired <;> rfl

/-- A timer that fires does nothing but run its task from then on, and gives what comes of that. -/
theorem runTask_of_fired
    (hdeadline : Instant.after? (p.world.clock.reading p.now) t.delay = some deadline)
    (hfired : (waitIn t.flag p deadline).fired = true) (execute : α → Action β) :
    (t.runTask execute).runIn p =
      let ran := (execute t.task).runIn (t.fired p (waitIn t.flag p deadline))
      (ran.1.map some, ran.2) := by
  have hrun := run_runIn hdeadline
  simp only [hfired, if_true] at hrun
  rw [runTask, Action.runIn_bind_ok hrun]
  exact Action.runIn_map some (execute t.task) _

/-- A timer that was cancelled leaves its task alone. -/
theorem runTask_of_not_fired
    (hdeadline : Instant.after? (p.world.clock.reading p.now) t.delay = some deadline)
    (hfired : (waitIn t.flag p deadline).fired = false) (execute : α → Action β) :
    (t.runTask execute).runIn p =
      (.ok none, (p.waited (waitIn t.flag p deadline)).after (.logged .timerCancelled)) := by
  have hrun := run_runIn hdeadline
  simp only [hfired, Bool.false_eq_true, if_false] at hrun
  rw [runTask, Action.runIn_bind_ok hrun]
  exact Action.runIn_pure none _

/-- A raised flag ends a wait at its first look. -/
theorem waitIn_of_raised {flag : Flag} (h : p.flags.isRaised flag = true) (deadline : Nat) :
    (waitIn flag p deadline).fired = false ∧ (waitIn flag p deadline).sleeps = [] := by
  have hraised : p.raisedAt flag (p.world.clock.reading p.now) = true := by
    rw [Process.raisedAt, h, Bool.true_or]
  rw [waitIn, wait_of_raised hraised]
  exact ⟨rfl, rfl⟩

/-- A flag that is down, and that nobody is going to raise, lets the timer fire. -/
theorem fired_of_not_raised {flag : Flag} (h : p.flags.isRaised flag = false)
    (hpending : p.pending = []) : (waitIn flag p deadline).fired = true := by
  apply fired_of_down
  intro t _
  rw [Process.raisedAt, h, hpending]
  rfl

/-- A timer whose deadline cannot be told breaks before it looks at its flag. -/
theorem run_of_never (hnever : Instant.after? (p.world.clock.reading p.now) t.delay = none) :
    t.run.runIn p = (.error .panicked, { p with now := p.world.clock.reading p.now }) := by
  have hawait : t.await.runIn p =
      (.error .panicked, { p with now := p.world.clock.reading p.now }) := by
    simp only [await, Action.runIn, hnever]
  exact Action.runIn_bind_error hawait

end

/-- What the run of a cancelled timer comes to: nothing, unless its deadline cannot be told. -/
def cancelledEnd (start : Nat) (delay : Duration) : Except Stop (Option α) :=
  if start + delay.nanos < Instant.limit then .ok none else .error .panicked

/-- A timer that was cancelled before it is run does nothing, whatever its task is. -/
theorem runTask_of_raised {t : Timer α} {p : Process} (h : p.flags.isRaised t.flag = true)
    (execute : α → Action β) :
    ((t.runTask execute).runIn p).1 = cancelledEnd (p.world.clock.reading p.now) t.delay ∧
      ((t.runTask execute).runIn p).2.deeds = p.deeds := by
  cases hdeadline : Instant.after? (p.world.clock.reading p.now) t.delay with
  | none =>
    rw [runTask, Action.runIn_bind_error (run_of_never hdeadline), cancelledEnd,
      if_neg (Instant.not_lt_of_after? hdeadline)]
    exact ⟨rfl, rfl⟩
  | some deadline =>
    obtain ⟨hfired, hsleeps⟩ := waitIn_of_raised h deadline
    rw [runTask_of_not_fired hdeadline hfired, cancelledEnd,
      if_pos (Instant.lt_of_after? hdeadline)]
    refine ⟨rfl, ?_⟩
    rw [Process.deeds_after_logged, (p.leads_waited _).deeds, hsleeps]
    exact List.append_nil _

end Timer

/-- What runs a timer and ends without a value when it was cancelled. -/
theorem Follows.timer {t : Timer β} {k : Option β → Action (Option α)} {q : Process}
    {deadline : Nat} {steps : List (Step (Option α))} {last : Except Stop (Option α)}
    (hdeadline : Instant.after? (q.world.clock.reading q.now) t.delay = some deadline)
    (hnone : k none = Pure.pure none)
    (hrest : (Timer.waitIn t.flag q deadline).fired = true →
      Follows (k (some t.task)) (t.fired q (Timer.waitIn t.flag q deadline)) steps last) :
    Follows (t.run >>= k) q (Step.waiting (Timer.waitIn t.flag q deadline) :: steps) last := by
  have hrun := Timer.run_runIn hdeadline
  have hleads (r : Log.Record) :=
    (q.leads_waited (Timer.waitIn t.flag q deadline)).trans (.logged _ r)
  simp only [List.append_nil] at hleads
  cases hfired : (Timer.waitIn t.flag q deadline).fired with
  | true =>
    simp only [hfired, if_true] at hrun
    refine pass hrun ?_ (hleads _) (hrest hfired)
    simp [Step.waiting, hfired]
  | false =>
    simp only [hfired, Bool.false_eq_true, if_false] at hrun
    have hall := Action.runIn_bind_ok (k := k) hrun
    rw [hnone, Action.runIn_pure] at hall
    refine stop hall ?_ (hleads _)
    simp [Step.waiting, hfired]

/-- What would wait for the end of time, which breaks the run. -/
def Step.breaking (now : Nat) : Step α where
  deeds := []
  ended := now
  ending := some (.error .panicked)

theorem Follows.endlessTimer {t : Timer β} {k : Option β → Action α} {q : Process}
    {steps : List (Step α)} {last : Except Stop α}
    (hnever : Instant.after? (q.world.clock.reading q.now) t.delay = none) :
    Follows (t.run >>= k) q (Step.breaking (q.world.clock.reading q.now) :: steps) last := by
  have hrun := Timer.run_of_never hnever
  exact stop (Action.runIn_bind_error hrun) rfl
    ⟨rfl, rfl, (List.append_nil _).symm, (List.append_nil _).symm, (List.append_nil _).symm⟩

end DeferredOpen
