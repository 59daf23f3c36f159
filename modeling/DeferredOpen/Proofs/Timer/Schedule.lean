import DeferredOpen.Proofs.Timer.Waiting

/-!
# Cancelling while a timer runs

A running timer loads its flag, reads the clock and sleeps, over and over, while others cancel it. A
schedule puts all these steps into one order. In every schedule the run ends, and it is cancelled if
a cancel comes before the flag is loaded for the last time. A cancel between this and the reading of
the clock that follows is lost: the timer fires, even if it was cancelled before its deadline.

Every run in a process has a schedule. The looks of the schedule are those of the process, so what
comes of the one comes of the other.
-/

namespace DeferredOpen

/-- The instants at which others raise a flag for a process. One that is up already counts as raised
at the beginning of time. -/
def Process.cancelsOf (p : Process) (flag : Flag) : List Nat :=
  (if p.flags.isRaised flag then [0] else []) ++ (p.pending.filter (·.2 = flag)).map (·.1)

theorem Process.raisedAt_eq_any (p : Process) (flag : Flag) (t : Nat) :
    p.raisedAt flag t = (p.cancelsOf flag).any (· ≤ t) := by
  simp only [raisedAt, cancelsOf, List.any_append, List.any_map, List.any_filter]
  congr 1
  cases p.flags.isRaised flag <;> simp

namespace Timer

/-- What a verdict means for the whole wait, if it ends it: whether the timer fires. -/
def Verdict.ending? : Verdict → Option Bool
  | .cancelled => some false
  | .due => some true
  | .sleep _ => none

theorem Verdict.exists_sleep_of_ending? {v : Verdict} (h : v.ending? = none) :
    ∃ length, v = .sleep length := by
  cases v with
  | cancelled => cases h
  | due => cases h
  | sleep length => exact ⟨length, rfl⟩

section

variable {deadline m n : Nat} {looks : Nat → Look} {fired : Bool}

/-- One more look decides about a wait that goes on. -/
theorem poll_succ_of_none (h : poll deadline looks n = none) :
    poll deadline looks (n + 1) = ((looks n).verdict deadline).ending? := by
  simp only [poll, h]
  cases (looks n).verdict deadline <;> rfl

/-- A wait that has ended is left alone. -/
theorem poll_succ_of_some (h : poll deadline looks n = some fired) :
    poll deadline looks (n + 1) = some fired := by
  simp only [poll, h]

/-- A wait that has ended stays as it is. -/
theorem poll_of_le (h : poll deadline looks m = some fired) (hle : m ≤ n) :
    poll deadline looks n = some fired := by
  induction hle with
  | refl => exact h
  | step _ ih => exact poll_succ_of_some ih

/-- A wait that has ended has a last look. -/
theorem exists_last_look (h : poll deadline looks n = some fired) :
    ∃ last, poll deadline looks last = none ∧ poll deadline looks (last + 1) = some fired := by
  induction n with
  | zero => cases h
  | succ n ih =>
    cases hbefore : poll deadline looks n with
    | none => exact ⟨n, hbefore, h⟩
    | some earlier =>
      obtain rfl : earlier = fired :=
        Option.some.inj ((poll_succ_of_some hbefore).symm.trans h)
      exact ih hbefore

/-- After a sleep a wait goes on with the looks that are left. -/
theorem poll_of_sleep {length : Nat} (h : (looks 0).verdict deadline = .sleep length) (n : Nat) :
    poll deadline looks (n + 1) = poll deadline (fun i => looks (i + 1)) n := by
  induction n with
  | zero => rw [poll_succ_of_none rfl, h]; rfl
  | succ n ih => rw [poll, ih]; rfl

end

/-- An order in which a timer of some delay runs and is cancelled. The steps stand at positions in
this order, and the clock never goes back from one to the next. -/
structure Schedule (delay : Duration) where
  /-- The time at a position. -/
  time : Nat → Nat
  time_mono : ∀ {j k}, j ≤ k → time j ≤ time k
  /-- Where the run begins by reading the clock. -/
  start : Nat
  /-- Where it loads the flag for the `i`-th time. -/
  load : Nat → Nat
  /-- Where it reads the clock after that. -/
  reading : Nat → Nat
  start_lt_first : start < load 0
  load_lt_reading : ∀ i, load i < reading i
  reading_lt_load : ∀ i, reading i < load (i + 1)
  /-- No sleep is shorter than it has to be. -/
  slept : ∀ {i}, time (reading i) < time start + delay.nanos →
    time (reading i) + min (time start + delay.nanos - time (reading i)) pollInterval ≤
      time (load (i + 1))
  /-- Where somebody has cancelled the timer, through whichever handle. -/
  cancels : List Nat

namespace Schedule

variable {delay : Duration} (σ : Schedule delay)

def deadline : Nat := σ.time σ.start + delay.nanos

/-- What the run sees the `i`-th time. -/
def look (i : Nat) : Look := ⟨σ.cancels.any (· < σ.load i), σ.time (σ.reading i)⟩

def result (n : Nat) : Option Bool := poll σ.deadline σ.look n

theorem start_lt_load (i : Nat) : σ.start < σ.load i := by
  induction i with
  | zero => exact σ.start_lt_first
  | succ i ih => exact Nat.lt_trans ih (Nat.lt_trans (σ.load_lt_reading i) (σ.reading_lt_load i))

theorem look_cancelled_iff (i : Nat) :
    (σ.look i).cancelled = true ↔ ∃ c ∈ σ.cancels, c < σ.load i := by
  simp [look]

/-- After a look that ends nothing the deadline is still to come, and time goes by until the next
one. -/
theorem lt_of_goes_on {i : Nat} (h : ((σ.look i).verdict σ.deadline).ending? = none) :
    σ.time (σ.reading i) < σ.deadline ∧ σ.time (σ.load i) < σ.time (σ.load (i + 1)) := by
  obtain ⟨length, hsleep⟩ := Verdict.exists_sleep_of_ending? h
  have hlt : σ.time (σ.reading i) < σ.deadline := (Look.lt_of_verdict_sleep hsleep).1
  have hread : σ.time (σ.load i) ≤ σ.time (σ.reading i) :=
    σ.time_mono (Nat.le_of_lt (σ.load_lt_reading i))
  have hslept := σ.slept hlt
  simp only [deadline, pollInterval, Duration.perMillisecond] at hlt hslept ⊢
  omega

/-- As long as the run goes on the clock does, too. -/
theorem time_start_add_le {n : Nat} (h : σ.result n = none) :
    σ.time σ.start + n ≤ σ.time (σ.load n) := by
  induction n with
  | zero => exact σ.time_mono (Nat.le_of_lt (σ.start_lt_load 0))
  | succ n ih =>
    cases hbefore : σ.result n with
    | some fired =>
      rw [result, poll_succ_of_some hbefore] at h
      cases h
    | none =>
      rw [result, poll_succ_of_none hbefore] at h
      have hgone := (σ.lt_of_goes_on h).2
      have hsofar := ih hbefore
      omega

/-- A run ends, for it cannot look more often than its delay has nanoseconds without coming to the
deadline. -/
theorem exists_result : ∃ n fired, σ.result n = some fired := by
  refine ⟨delay.nanos + 1, ?_⟩
  cases hbefore : σ.result delay.nanos with
  | some fired => exact ⟨fired, poll_succ_of_some hbefore⟩
  | none =>
    rw [result, poll_succ_of_none hbefore]
    cases hlast : ((σ.look delay.nanos).verdict σ.deadline).ending? with
    | some fired => exact ⟨fired, rfl⟩
    | none =>
      have hlate := σ.time_start_add_le hbefore
      have hread := σ.time_mono (Nat.le_of_lt (σ.load_lt_reading delay.nanos))
      have hearly := (σ.lt_of_goes_on hlast).1
      rw [deadline] at hearly
      omega

/-- What comes of a run does not depend on how long it is watched. -/
theorem result_unique {m n : Nat} {fired fired' : Bool} (h : σ.result m = some fired)
    (h' : σ.result n = some fired') : fired = fired' := by
  rcases Nat.le_total m n with hle | hle
  · exact Option.some.inj ((poll_of_le h hle).symm.trans h')
  · exact Option.some.inj (h.symm.trans (poll_of_le h' hle))

/-- The last look of a run is cancelled, or it finds that the delay is over. -/
theorem last_look {last : Nat} {fired : Bool} (hbefore : σ.result last = none)
    (hlast : σ.result (last + 1) = some fired) :
    (fired = true ↔ ∀ c ∈ σ.cancels, σ.load last ≤ c) ∧
      (fired = true → σ.deadline ≤ σ.time (σ.reading last)) := by
  rw [result, poll_succ_of_none hbefore] at hlast
  have hseen := σ.look_cancelled_iff last
  cases hverdict : (σ.look last).verdict σ.deadline with
  | sleep length =>
    rw [hverdict] at hlast
    cases hlast
  | cancelled =>
    rw [hverdict] at hlast
    obtain rfl : false = fired := Option.some.inj hlast
    obtain ⟨c, hc, hin⟩ := hseen.mp (Look.cancelled_of_verdict hverdict)
    refine ⟨iff_of_false Bool.false_ne_true fun hall => ?_, fun h => absurd h Bool.false_ne_true⟩
    exact absurd hin (Nat.not_lt.mpr (hall c hc))
  | due =>
    rw [hverdict] at hlast
    obtain rfl : true = fired := Option.some.inj hlast
    have hunseen : (σ.look last).cancelled = false := Look.unraised_of_verdict_due hverdict
    refine ⟨iff_of_true rfl fun c hc => ?_, fun _ => Look.le_of_verdict_due hverdict⟩
    refine Nat.not_lt.mp fun hin => ?_
    rw [hseen.mpr ⟨c, hc, hin⟩] at hunseen
    cases hunseen

end Schedule

/-- When a run looks for the `i`-th time. Past the deadline, where no look is needed any more, it is
taken to sleep for a nanosecond. -/
def instant (clock : Clock) (deadline now : Nat) : Nat → Nat
  | 0 => now
  | i + 1 =>
    let read := clock.reading (instant clock deadline now i)
    clock.waking read (max 1 (min (deadline - read) pollInterval))

theorem instant_succ (clock : Clock) (deadline now i : Nat) :
    instant clock deadline now (i + 1) =
      instant clock deadline (instant clock deadline now 1) i := by
  induction i with
  | zero => rfl
  | succ i ih => rw [instant, ih]; rfl

section

variable {clock : Clock} {raised : Nat → Bool} {deadline now length : Nat}

/-- A sleep ends at the next instant, for it does not last no time at all. -/
theorem waking_eq_instant (h : (lookAt clock raised now).verdict deadline = .sleep length) :
    clock.waking (clock.reading now) length = instant clock deadline now 1 := by
  obtain ⟨hlt, hlength⟩ := Look.lt_of_verdict_sleep h
  have hpositive : max 1 length = length := by
    simp only [lookAt, pollInterval, Duration.perMillisecond] at hlt hlength
    omega
  rw [instant, instant, ← hpositive, hlength]
  rfl

/-- A wait that ends with its first look has not slept. -/
theorem wait_of_ending {fired : Bool}
    (h : ((lookAt clock raised now).verdict deadline).ending? = some fired) :
    wait clock raised deadline now = ⟨fired, clock.reading now, []⟩ := by
  rw [wait]
  split <;> rename_i hverdict <;> rw [hverdict] at h
  · exact congrArg (Wait.mk · _ []) (Option.some.inj h)
  · exact congrArg (Wait.mk · _ []) (Option.some.inj h)
  · cases h

/-- A wait that begins with a sleep goes on at the next instant. -/
theorem wait_of_sleep (h : (lookAt clock raised now).verdict deadline = .sleep length) :
    wait clock raised deadline now =
      let later := wait clock raised deadline (instant clock deadline now 1)
      { later with sleeps := ⟨clock.reading now, length⟩ :: later.sleeps } := by
  rw [wait, ← waking_eq_instant h]
  split <;> rename_i hverdict <;> rw [h] at hverdict
  · cases hverdict
  · cases hverdict
  · obtain rfl := Verdict.sleep.inj hverdict
    rfl

end

/-- A wait is the poll of what it sees. -/
theorem exists_poll_eq_wait (clock : Clock) (raised : Nat → Bool) (deadline now : Nat) :
    ∃ n, poll deadline (fun i => lookAt clock raised (instant clock deadline now i)) n =
      some (wait clock raised deadline now).fired := by
  fun_induction wait clock raised deadline now with
  | case1 now hverdict =>
    refine ⟨1, ?_⟩
    rw [poll_succ_of_none rfl]
    exact congrArg Verdict.ending? hverdict
  | case2 now hverdict =>
    refine ⟨1, ?_⟩
    rw [poll_succ_of_none rfl]
    exact congrArg Verdict.ending? hverdict
  | case3 now length hverdict later ih =>
    obtain ⟨n, hn⟩ := ih
    refine ⟨n + 1, ?_⟩
    rw [poll_of_sleep hverdict, ← hn, waking_eq_instant hverdict]
    exact congrArg (poll deadline · n)
      (funext fun i => congrArg (lookAt clock raised) (instant_succ clock deadline now i))

variable {α : Type}

/-- When a run in a process looks for the `i`-th time. -/
def seeing (t : Timer α) (p : Process) : Nat → Nat :=
  let start := p.world.clock.reading p.now
  instant p.world.clock (start + t.delay.nanos) start

/-- The next look comes when the sleep is over. -/
theorem reading_add_le_seeing (t : Timer α) (p : Process) (i : Nat) :
    let read := p.world.clock.reading (t.seeing p i)
    let deadline := p.world.clock.reading p.now + t.delay.nanos
    read + max 1 (min (deadline - read) pollInterval) ≤ t.seeing p (i + 1) :=
  p.world.clock.le_waking _ _

/-- The schedule of a run in a process. Of the steps at one instant the cancels come first, then the
reading that begins the run, the loading and the reading after it. -/
def schedule (t : Timer α) (p : Process) : Schedule t.delay where
  time k := k / 4
  time_mono h := Nat.div_le_div_right h
  start := 4 * p.world.clock.reading p.now + 1
  load i := 4 * t.seeing p i + 2
  reading i := 4 * p.world.clock.reading (t.seeing p i) + 3
  start_lt_first := by
    simp only [seeing, instant]
    omega
  load_lt_reading i := by
    have hread := p.world.clock.le_reading (t.seeing p i)
    omega
  reading_lt_load i := by
    have hnext := t.reading_add_le_seeing p i
    simp only at hnext
    omega
  slept := by
    intro i _
    have hnext := t.reading_add_le_seeing p i
    simp only at hnext
    omega
  cancels := (p.cancelsOf t.flag).map (4 * ·)

theorem deadline_schedule (t : Timer α) (p : Process) :
    (t.schedule p).deadline = p.world.clock.reading p.now + t.delay.nanos := by
  simp only [Schedule.deadline, schedule]
  omega

/-- A run in a process sees what its schedule says. -/
theorem look_schedule (t : Timer α) (p : Process) (i : Nat) :
    (t.schedule p).look i = lookAt p.world.clock (p.raisedAt t.flag) (t.seeing p i) := by
  simp only [Schedule.look, schedule, lookAt, p.raisedAt_eq_any, List.any_map]
  congr 1
  · refine congrArg (List.any _) (funext fun due => ?_)
    simp only [Function.comp]
    exact decide_eq_decide.mpr (by omega)
  · omega

/-- What a run in a process gives is up to its wait. -/
theorem run_eq_waitIn {t : Timer α} {p : Process} {deadline : Nat}
    (hdeadline : Instant.after? (p.world.clock.reading p.now) t.delay = some deadline) :
    (t.run.runIn p).1 = .ok (if (waitIn t.flag p deadline).fired then some t.task else none) := by
  rw [run_runIn hdeadline]
  dsimp only
  cases (waitIn t.flag p deadline).fired <;> rfl

/-- A run in a process comes to the end that its schedule leads to. -/
theorem run_eq_result {t : Timer α} {p : Process} {deadline : Nat}
    (hdeadline : Instant.after? (p.world.clock.reading p.now) t.delay = some deadline) :
    deadline = (t.schedule p).deadline ∧ ∃ n fired, (t.schedule p).result n = some fired ∧
      (t.run.runIn p).1 = .ok (if fired then some t.task else none) := by
  have hdue : deadline = (t.schedule p).deadline :=
    (Instant.eq_of_after? hdeadline).trans (t.deadline_schedule p).symm
  obtain ⟨n, hn⟩ := exists_poll_eq_wait p.world.clock (p.raisedAt t.flag) deadline
    (p.world.clock.reading p.now)
  refine ⟨hdue, n, (waitIn t.flag p deadline).fired, ?_, run_eq_waitIn hdeadline⟩
  rw [Schedule.result, ← hdue, funext (t.look_schedule p)]
  rw [Instant.eq_of_after? hdeadline] at hn ⊢
  exact hn

/-- What has come of its schedule comes of a run in a process. -/
theorem run_of_result {t : Timer α} {p : Process} {deadline n : Nat} {fired : Bool}
    (hdeadline : Instant.after? (p.world.clock.reading p.now) t.delay = some deadline)
    (h : (t.schedule p).result n = some fired) :
    (t.schedule p).deadline = deadline ∧
      (t.run.runIn p).1 = .ok (if fired then some t.task else none) := by
  obtain ⟨hdue, m, given, hgiven, hrun⟩ := run_eq_result hdeadline
  rw [(t.schedule p).result_unique h hgiven]
  exact ⟨hdue.symm, hrun⟩

/-- The run of a timer that is cancelled before its deadline, or before the run begins, comes to an
end. It fires exactly if no cancel has come before it loads the flag for the last time, and then
this one has come between that and the reading of the clock that follows. In all other orders the
run is cancelled. A run in a process whose steps come in this order has just this end. -/
theorem Schedule.cancelled_unless_missed {delay : Duration} (σ : Schedule delay) {c : Nat}
    (hc : c ∈ σ.cancels) (hearly : c < σ.start ∨ σ.time c < σ.deadline) :
    ∃ last fired, σ.result last = none ∧ σ.result (last + 1) = some fired ∧
      (fired = true ↔ ∀ c' ∈ σ.cancels, σ.load last ≤ c') ∧
      (fired = true →
        σ.load last ≤ c ∧ c < σ.reading last ∧ σ.deadline ≤ σ.time (σ.reading last)) ∧
      ∀ (β : Type) (task : β) (flag : Flag) (p : Process) (deadline : Nat),
        Instant.after? (p.world.clock.reading p.now) delay = some deadline →
        Timer.schedule ⟨delay, flag, task⟩ p = σ →
        σ.deadline = deadline ∧
          ((Timer.mk delay flag task).run.runIn p).1 =
            .ok (if fired then some task else none) := by
  obtain ⟨n, fired, hended⟩ := σ.exists_result
  obtain ⟨last, hbefore, hlast⟩ := exists_last_look hended
  obtain ⟨hiff, hdue⟩ := σ.last_look hbefore hlast
  refine ⟨last, fired, hbefore, hlast, hiff, ?_, ?_⟩
  · intro hfired
    have hmissed : σ.load last ≤ c := hiff.mp hfired c hc
    refine ⟨hmissed, ?_, hdue hfired⟩
    rcases hearly with hbegun | hintime
    · have hlater := σ.start_lt_load last
      omega
    · refine Nat.not_le.mp fun hafter => ?_
      have hpassed : σ.deadline ≤ σ.time c := Nat.le_trans (hdue hfired) (σ.time_mono hafter)
      omega
  · rintro β task flag p deadline hdeadline rfl
    exact run_of_result hdeadline hlast

/-- A cancel while the timer sleeps is seen by its second look, and the run gives nothing. -/
theorem Schedule.cancelled_unless_missed_in_sleep :
    let p : Process := { world := .installed {} [], pending := [(3, ⟨0⟩)] }
    let t : Timer String := ⟨⟨5⟩, ⟨0⟩, "task"⟩
    let σ := t.schedule p
    12 ∈ σ.cancels ∧ (12 < σ.start ∨ σ.time 12 < σ.deadline) ∧ σ.result 2 = some false ∧
      (∃ last fired, σ.result last = none ∧ σ.result (last + 1) = some fired ∧
        (fired = true ↔ ∀ c' ∈ σ.cancels, σ.load last ≤ c')) ∧
      Instant.after? (p.world.clock.reading p.now) t.delay = some 5 ∧
      (t.run.runIn p).1 = .ok none := by
  intro p t σ
  have hc : 12 ∈ σ.cancels := by decide
  have hearly : 12 < σ.start ∨ σ.time 12 < σ.deadline := .inr (by decide)
  have hsecond : σ.result 2 = some false := by decide
  have hdeadline : Instant.after? (p.world.clock.reading p.now) t.delay = some 5 := rfl
  obtain ⟨last, fired, hbefore, hlast, hiff, -, hran⟩ := σ.cancelled_unless_missed hc hearly
  obtain ⟨-, hrun⟩ := hran String "task" ⟨0⟩ p 5 hdeadline rfl
  rw [σ.result_unique hlast hsecond] at hrun
  exact ⟨hc, hearly, hsecond, ⟨last, fired, hbefore, hlast, hiff⟩, hdeadline, hrun⟩

/-- On a clock that takes two nanoseconds for each reading a cancel comes one nanosecond before the
deadline, but behind the only loading of the flag, and the timer fires. -/
theorem run_of_cancel_behind_last_load :
    let clock : Clock :=
      { reading := (· + 2), waking := (· + ·), le_reading := by omega, le_waking := by omega }
    let p : Process := { world := { World.installed {} [] with clock }, pending := [(3, ⟨0⟩)] }
    let t : Timer String := ⟨⟨2⟩, ⟨0⟩, "task"⟩
    let σ := t.schedule p
    Instant.after? (p.world.clock.reading p.now) t.delay = some 4 ∧ (3, t.flag) ∈ p.pending ∧
      12 ∈ σ.cancels ∧ σ.time 12 = 3 ∧ σ.deadline = 4 ∧ σ.result 1 = some true ∧
      (t.run.runIn p).1 = .ok (some "task") := by
  intro clock p t σ
  have hdeadline : Instant.after? (p.world.clock.reading p.now) t.delay = some 4 := rfl
  have hfired : (waitIn t.flag p 4).fired = true := by
    rw [waitIn, wait_of_due (by decide) (by decide)]
  have hrun := run_eq_waitIn hdeadline
  rw [hfired] at hrun
  exact ⟨hdeadline, List.mem_singleton_self _, by decide, by decide, by decide, by decide, hrun⟩

end Timer

end DeferredOpen
