import DeferredOpen.Proofs.Timer.TimeLeft
import Mathlib.Algebra.Order.Floor.Div

/-!
# The pace of a running timer

Each sleep of a run but its last one is a whole poll interval, for a shorter one ends at the
deadline. So a run looks at most once for each interval that its delay holds or begins, and once
more. A cancel is seen by the next look, and only the sleep before that can still be begun behind
it. Where sleeps are exact and all else takes no time, the last sleep ends just at the deadline.
-/

namespace DeferredOpen.Timer

def Deed.isLoad : Deed → Bool
  | .loaded _ => true
  | _ => false

theorem Look.countP_isLoad_deeds (deadline : Nat) (look : Look) :
    (look.deeds deadline).countP Deed.isLoad = 1 := by
  unfold deeds
  cases look.verdict deadline <;> rfl

/-- A look that ends nothing leads to a sleep. -/
theorem Look.filterMap_deeds_of_goes_on {deadline : Nat} {look : Look}
    (h : (look.verdict deadline).ending? = none) :
    (look.deeds deadline).filterMap Deed.sleep? =
      [⟨look.now, min (deadline - look.now) pollInterval⟩] := by
  obtain ⟨length, hsleep⟩ := Verdict.exists_sleep_of_ending? h
  obtain ⟨-, rfl⟩ := Look.lt_of_verdict_sleep hsleep
  rw [deeds, hsleep]
  rfl

theorem Look.filterMap_deeds_of_ending {deadline : Nat} {look : Look} {fired : Bool}
    (h : (look.verdict deadline).ending? = some fired) :
    (look.deeds deadline).filterMap Deed.sleep? = [] := by
  unfold deeds
  cases hverdict : look.verdict deadline with
  | cancelled | due => rfl
  | sleep length => simp [hverdict, Verdict.ending?] at h

/-- A sleep within the deadline is no empty one, no longer than a millisecond, and over in time. -/
theorem Sleep.Within.bounds {deadline : Nat} {sleep : Sleep} (h : sleep.Within deadline) :
    0 < sleep.length ∧ sleep.length ≤ Duration.perMillisecond ∧
      sleep.start + sleep.length ≤ deadline := by
  have hearly := h.early
  have hlength := h.length
  simp only [pollInterval, Duration.perMillisecond] at hlength ⊢
  omega

section

variable {deadline n : Nat} {looks : Nat → Look}

/-- A run that goes on has gone on all the time. -/
theorem poll_of_succ (h : poll deadline looks (n + 1) = none) : poll deadline looks n = none :=
  poll_eq_none_iff.mpr fun j hj => poll_eq_none_iff.mp h j (Nat.lt_succ_of_lt hj)

/-- A run loads its flag once in each of its rounds. -/
theorem countP_isLoad_deeds (h : poll deadline looks n = none) :
    (deeds deadline looks (n + 1)).countP Deed.isLoad = n + 1 := by
  induction n with
  | zero => rw [deeds_succ_of_none h, deeds, List.nil_append, Look.countP_isLoad_deeds]
  | succ n ih =>
    rw [deeds_succ_of_none h, List.countP_append, ih (poll_of_succ h), Look.countP_isLoad_deeds]

end

namespace Schedule

variable {delay : Duration} (σ : Schedule delay) {n : Nat}

def sleep (i : Nat) : Sleep :=
  ⟨σ.time (σ.reading i), min (σ.deadline - σ.time (σ.reading i)) pollInterval⟩

/-- Sleeps are exact, and nothing else takes time. -/
structure Exact : Prop where
  start : σ.time (σ.load 0) = σ.time σ.start
  reading : ∀ i, σ.time (σ.reading i) = σ.time (σ.load i)
  slept : ∀ i, σ.time (σ.reading i) < σ.deadline →
    σ.time (σ.load (i + 1)) = (σ.sleep i).start + (σ.sleep i).length

theorem early_of_goes_on (h : σ.result (n + 1) = none) : σ.time (σ.reading n) < σ.deadline :=
  (poll_eq_none_iff.mp h n (Nat.lt_succ_self n)).2

/-- What a run has slept when it goes on are whole poll intervals. -/
theorem start_add_mul_le (h : σ.result (n + 1) = none) :
    σ.time σ.start + n * pollInterval ≤ σ.time (σ.reading n) := by
  induction n with
  | zero =>
    have hread := Nat.lt_trans (σ.start_lt_load 0) (σ.load_lt_reading 0)
    simpa using σ.time_mono (Nat.le_of_lt hread)
  | succ n ih =>
    have hsofar := ih (poll_of_succ h)
    have hslept := σ.slept (σ.early_of_goes_on (poll_of_succ h))
    have hload := σ.time_mono (Nat.le_of_lt (σ.load_lt_reading (n + 1)))
    have hearly := σ.early_of_goes_on h
    -- The sleep has not reached the deadline, so it was not cut short by it.
    rw [deadline] at hearly
    rw [Nat.succ_mul]
    omega

/-- A run that goes on has not looked more often than its delay has poll intervals. -/
theorem le_ceilDiv (h : σ.result n = none) : n ≤ delay.nanos ⌈/⌉ pollInterval := by
  cases n with
  | zero => exact Nat.zero_le _
  | succ n =>
    have hslept := σ.start_add_mul_le h
    have hearly := σ.early_of_goes_on h
    rw [deadline] at hearly
    refine Nat.lt_of_not_le fun hle => ?_
    rw [ceilDiv_le_iff_le_mul (by decide), Nat.mul_comm] at hle
    omega

/-- Up to the round in which a run ends each round has its sleep. -/
theorem sleeps_of_goes_on (h : σ.result n = none) :
    (deeds σ.deadline σ.look n).filterMap Deed.sleep? = (List.range n).map σ.sleep := by
  induction n with
  | zero => rfl
  | succ n ih =>
    have hbefore : σ.result n = none := poll_of_succ h
    have hround := (poll_succ_of_none hbefore).symm.trans h
    rw [deeds_succ_of_none hbefore, List.filterMap_append, ih hbefore,
      Look.filterMap_deeds_of_goes_on hround, List.range_succ, List.map_append]
    rfl

/-- The round in which a run ends has no sleep. -/
theorem sleeps_of_ended {fired : Bool} (hgoing : σ.result n = none)
    (hended : σ.result (n + 1) = some fired) :
    (deeds σ.deadline σ.look (n + 1)).filterMap Deed.sleep? = (List.range n).map σ.sleep := by
  have hround := (poll_succ_of_none hgoing).symm.trans hended
  rw [deeds_succ_of_none hgoing, List.filterMap_append, σ.sleeps_of_goes_on hgoing,
    Look.filterMap_deeds_of_ending hround, List.append_nil]

/-- A cancel that comes before a look leaves room for no sleep but those before that look. -/
theorem last_sleep_of_cancel {last i c : Nat} (hgoing : σ.result last = none) (hi : i < last)
    (hc : c ∈ σ.cancels) (hload : c < σ.load (i + 1)) : i + 1 = last := by
  by_contra hnext
  -- The look behind the sleep sees the cancel, so the run would not go on.
  have hdown := (poll_eq_none_iff.mp hgoing (i + 1) (by omega)).1
  rw [(σ.look_cancelled_iff (i + 1)).mpr ⟨c, hc, hload⟩] at hdown
  cases hdown

/-- How a run keeps its pace that ends in some round. -/
structure KeepsPace (last : Nat) (fired : Bool) : Prop where
  going : σ.result last = none
  ended : σ.result (last + 1) = some fired
  /-- Behind its last round the run does nothing. -/
  still : ∀ n, last < n → deeds σ.deadline σ.look n = deeds σ.deadline σ.look (last + 1)
  loads : (deeds σ.deadline σ.look (last + 1)).countP Deed.isLoad ≤
    delay.nanos ⌈/⌉ Duration.perMillisecond + 1
  /-- The run sleeps once in each round before that. -/
  sleeps : (deeds σ.deadline σ.look (last + 1)).filterMap Deed.sleep? =
    (List.range last).map σ.sleep
  /-- From the reading that it is told by, a sleep leads no further than to the deadline. -/
  within : ∀ i < last, 0 < (σ.sleep i).length ∧ (σ.sleep i).length ≤ Duration.perMillisecond ∧
    (σ.sleep i).start + (σ.sleep i).length ≤ σ.deadline
  /-- No sleep but the last one can be begun behind a cancel. -/
  afterCancel : ∀ c ∈ σ.cancels, ∀ i < last, ∀ begun, σ.reading i ≤ begun →
    begun ≤ σ.load (i + 1) → c < begun → i + 1 = last
  fires_iff : fired = true ↔ ∀ c ∈ σ.cancels, σ.load last ≤ c
  punctual : σ.Exact → fired = true → σ.time (σ.reading last) = σ.deadline

theorem sleep_within {i : Nat} (h : σ.time (σ.reading i) < σ.deadline) :
    (σ.sleep i).Within σ.deadline :=
  ⟨h, rfl⟩

/-- On an exact clock no look comes behind the deadline. -/
theorem Exact.reading_le {σ : Schedule delay} (hexact : σ.Exact) (h : σ.result n = none) :
    σ.time (σ.reading n) ≤ σ.deadline := by
  cases n with
  | zero =>
    rw [hexact.reading, hexact.start, deadline]
    exact Nat.le_add_right _ _
  | succ n =>
    have hearly := σ.early_of_goes_on h
    rw [hexact.reading, hexact.slept n hearly]
    exact (σ.sleep_within hearly).bounds.2.2

theorem exists_keepsPace : ∃ last fired, σ.KeepsPace last fired := by
  obtain ⟨n, fired, hresult⟩ := σ.exists_result
  obtain ⟨last, hgoing, hended⟩ := exists_last_look hresult
  obtain ⟨hfired, hdue⟩ := σ.last_look hgoing hended
  exact ⟨last, fired, {
    going := hgoing
    ended := hended
    still := fun n hn => deeds_of_le hended hn
    loads := by
      rw [countP_isLoad_deeds hgoing]
      exact Nat.succ_le_succ (σ.le_ceilDiv hgoing)
    sleeps := σ.sleeps_of_ended hgoing hended
    within := fun i hi => (σ.sleep_within (poll_eq_none_iff.mp hgoing i hi).2).bounds
    afterCancel := fun c hc i hi begun _ hload hcancel =>
      σ.last_sleep_of_cancel hgoing hi hc (Nat.lt_of_lt_of_le hcancel hload)
    fires_iff := hfired
    punctual := fun hexact hfires => Nat.le_antisymm (hexact.reading_le hgoing) (hdue hfires) }⟩

def wait (last : Nat) (fired : Bool) : Wait :=
  ⟨fired, σ.time (σ.reading last), (List.range last).map σ.sleep⟩

end Schedule

variable {α : Type} {t : Timer α} {p : Process}

theorem time_load_schedule (t : Timer α) (p : Process) (i : Nat) :
    (t.schedule p).time ((t.schedule p).load i) = t.seeing p i := by
  simp only [schedule]
  omega

theorem time_reading_schedule (t : Timer α) (p : Process) (i : Nat) :
    (t.schedule p).time ((t.schedule p).reading i) = p.world.clock.reading (t.seeing p i) := by
  simp only [schedule]
  omega

/-- On an exact clock a run in a process has an exact schedule. -/
theorem exact_schedule (t : Timer α) (h : p.world.clock = .exact) : (t.schedule p).Exact := by
  have hread : ∀ now, p.world.clock.reading now = now := by
    intro now
    rw [h]
    rfl
  constructor
  · rw [time_load_schedule]
    simp only [schedule, seeing, instant]
    omega
  · intro i
    rw [time_reading_schedule, time_load_schedule, hread]
  · intro i hearly
    have hnext : t.seeing p (i + 1) = t.seeing p i +
        max 1 (min (p.now + t.delay.nanos - t.seeing p i) pollInterval) := by
      simp only [seeing, instant, hread]
      rw [h]
      rfl
    rw [time_reading_schedule, deadline_schedule, hread, hread] at hearly
    rw [time_load_schedule, hnext, Schedule.sleep, time_reading_schedule, deadline_schedule, hread,
      hread]
    -- Before the deadline there is some time left to sleep.
    have hleft : 1 ≤ min (p.now + t.delay.nanos - t.seeing p i) pollInterval := by
      simp only [pollInterval, Duration.perMillisecond]
      omega
    rw [Nat.max_eq_right hleft]

theorem deadline_schedule_eq {deadline : Nat}
    (hdeadline : Instant.after? (p.world.clock.reading p.now) t.delay = some deadline) :
    (t.schedule p).deadline = deadline :=
  (t.deadline_schedule p).trans (Instant.eq_of_after? hdeadline).symm

/-- A run in a process waits as its schedule does. -/
theorem waitIn_eq_wait {deadline last : Nat} {fired : Bool}
    (hdeadline : Instant.after? (p.world.clock.reading p.now) t.delay = some deadline)
    (hgoing : (t.schedule p).result last = none)
    (hended : (t.schedule p).result (last + 1) = some fired) :
    waitIn t.flag p deadline = (t.schedule p).wait last fired := by
  have hlooks : (t.schedule p).look = t.lookIn p := funext (t.look_schedule p)
  have hdue : (t.schedule p).deadline = deadline := deadline_schedule_eq hdeadline
  have hsleeps := (t.schedule p).sleeps_of_goes_on hgoing
  rw [Schedule.result, hlooks, hdue] at hgoing hended
  rw [waitIn_of_last_round hdeadline hgoing hended, ← hlooks, Schedule.wait, ← hsleeps, hdue]
  rfl

/-- However a timer is run and cancelled, it loads its flag no more often than its delay has
milliseconds, counting one that is begun, and once more. Each of its sleeps is longer than nothing,
no longer than a millisecond and over by the deadline, and none but the last is begun behind a
cancel. Where sleeps are exact and all else takes no time, a run that is not cancelled fires just at
its deadline. A run in a process does what its schedule says. -/
theorem keeps_pace (t : Timer α) :
    (∀ σ : Schedule t.delay, ∃ last fired, σ.KeepsPace last fired) ∧
    ∀ (p : Process) (deadline : Nat),
      Instant.after? (p.world.clock.reading p.now) t.delay = some deadline →
      let σ := t.schedule p
      ∃ last fired, σ.KeepsPace last fired ∧ σ.deadline = deadline ∧
        t.run.runIn p = (if fired then (.ok (some t.task), t.fired p (σ.wait last fired))
          else (.ok none, (p.waited (σ.wait last fired)).after (.logged .timerCancelled))) ∧
        (p.world.clock = .exact → p.cancelsOf t.flag = [] →
          (t.run.runIn p).1 = .ok (some t.task) ∧ (t.run.runIn p).2.now = deadline) := by
  refine ⟨fun σ => σ.exists_keepsPace, ?_⟩
  intro p deadline hdeadline σ
  obtain ⟨last, fired, hpace⟩ := σ.exists_keepsPace
  have hdue : σ.deadline = deadline := deadline_schedule_eq hdeadline
  have hrun := run_runIn hdeadline
  simp only [waitIn_eq_wait hdeadline hpace.going hpace.ended] at hrun
  refine ⟨last, fired, hpace, hdue, hrun, ?_⟩
  intro hclock hnobody
  have hcancels : σ.cancels = [] := congrArg (List.map (4 * ·)) hnobody
  have hfired : fired = true := hpace.fires_iff.mpr (by simp [hcancels])
  rw [hrun, hfired]
  exact ⟨rfl, (hpace.punctual (exact_schedule t hclock) hfired).trans hdue⟩

/-- A millisecond and a half takes two sleeps, and the timer fires when it is over. -/
theorem keeps_pace_of_odd_delay :
    let p : Process := { world := .installed {} [] }
    let t : Timer String := ⟨⟨1500000⟩, ⟨0⟩, "task"⟩
    Instant.after? (p.world.clock.reading p.now) t.delay = some 1500000 ∧
      (t.run.runIn p).1 = .ok (some "task") ∧ (t.run.runIn p).2.now = 1500000 ∧
      ∃ last fired, (t.schedule p).KeepsPace last fired ∧
        (deeds 1500000 (t.schedule p).look (last + 1)).countP Deed.isLoad ≤ 3 := by
  intro p t
  have hdeadline : Instant.after? (p.world.clock.reading p.now) t.delay = some 1500000 := by decide
  have hthree : t.delay.nanos ⌈/⌉ Duration.perMillisecond + 1 = 3 := by decide
  obtain ⟨last, fired, hpace, hdue, -, hexact⟩ := (keeps_pace t).2 p 1500000 hdeadline
  obtain ⟨hfires, hnow⟩ := hexact rfl rfl
  have hloads := hpace.loads
  rw [hdue, hthree] at hloads
  exact ⟨hdeadline, hfires, hnow, last, fired, hpace, hloads⟩

end DeferredOpen.Timer
