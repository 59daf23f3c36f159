import DeferredOpen.Proofs.Delay.Accepted
import DeferredOpen.Proofs.Probe.Announcing
import DeferredOpen.Proofs.Settings.Precedence
import DeferredOpen.Proofs.Timer.TimeLeft

/-!
# Settings whose deadline can be told

The microseconds of a delay text are held in 64 bits, whatever its literal and its suffix ask for.
So a delay from settings that have been read is less than half of the time that can be told, and a
run that begins in the first half has a deadline. Then there is nothing left that could break it.
-/

namespace DeferredOpen

/-- The whole part of a number is held in the range of its bits, also where the number is not. -/
theorem Binary64.toWhole_le (width : Nat) (x : Binary64) :
    x.toWhole width ≤ Nat.pow 2 width - 1 := by
  cases x with
  | nan => exact Nat.zero_le _
  | infinite negative =>
    cases negative with
    | false => exact Nat.le_refl _
    | true => exact Nat.zero_le _
  | finite negative units =>
    cases negative with
    | false => exact Nat.min_le_right _ _
    | true => exact Nat.zero_le _

/-- The longest delay that a text can ask for. -/
def Delay.longest : Duration := .ofMicroseconds (Nat.pow 2 64 - 1)

theorem Delay.nanos_le_longest {cs : List Char} {d : Duration} (h : read cs = .accepted d) :
    d.nanos ≤ longest.nanos := by
  obtain ⟨number, l, s, -, -, rfl⟩ := (read_eq_accepted_iff cs d).mp h
  exact Nat.mul_le_mul_right _ (Binary64.toWhole_le 64 _)

namespace Settings

variable {ask : Variable → Lookup} {settings : Settings}

theorem nanos_le_longest (h : (read ask).result = .ok settings) :
    settings.delay.nanos ≤ Delay.longest.nanos := by
  obtain ⟨hdelay, -⟩ := (result_read_eq_ok_iff ask settings).mp h
  cases hanswer : ask .delay with
  | unset =>
    rw [hanswer, GivesDelay, Lookup.gives_unset_iff] at hdelay
    rw [hdelay]
    decide
  | failed text =>
    rw [hanswer] at hdelay
    cases hdelay
  | value text =>
    rw [hanswer, GivesDelay, Lookup.gives_value_iff] at hdelay
    exact Delay.nanos_le_longest hdelay

/-- What holds of a delay that is begun at an instant and cannot break a run. -/
structure KeepsTime (settings : Settings) (start : Nat) : Prop where
  delay : settings.delay.nanos < 2 ^ 63 * Duration.perSecond
  deadline : Instant.after? start settings.delay = some (start + settings.delay.nanos)
  /-- Whatever there is to be seen, the time that is left is told where there is some. -/
  rounds : ∀ looks n, (∃ ended, Timer.rounds (start + settings.delay.nanos) looks n = .ok ended) ∧
    ∀ sleep, .slept sleep ∈ Timer.deeds (start + settings.delay.nanos) looks n →
      sleep.Within (start + settings.delay.nanos)
  /-- A timer goes through its rounds until one of them ends it. -/
  timer : ∀ {α : Type} (t : Timer α) (p : Process), t.delay = settings.delay →
    p.world.clock.reading p.now = start →
    ∃ last fired,
      Timer.rounds (start + settings.delay.nanos) (t.lookIn p) last = .ok (some fired) ∧
      (t.run.runIn p).1 = .ok (if fired then some t.task else none)
  /-- A probe for the settings does not break, whenever it was made and whatever it writes to. -/
  probe : ∀ (p q : Process) (probe : Probe), ((Probe.create settings).runIn p).1 = .ok probe →
    q.world.clock.reading q.now = start → (probe.run.runIn q).1 ≠ .error .panicked

/-- No settings that can be read break a run, if the clock reads less than 2^62 seconds at its
beginning: the deadline can be told, and the time that is left until it, wherever a timer asks for
that. -/
theorem read_keeps_time (h : (read ask).result = .ok settings) {start : Nat}
    (hstart : start < 2 ^ 62 * Duration.perSecond) : settings.KeepsTime start := by
  have hdelay := nanos_le_longest h
  have hlongest : Delay.longest.nanos < 2 ^ 62 * Duration.perSecond := by decide
  have hlimit : Instant.limit = 2 ^ 63 * Duration.perSecond := rfl
  have hdeadline : Instant.after? start settings.delay = some (start + settings.delay.nanos) := by
    rw [Instant.after?, if_pos (by omega)]
  constructor
  · omega
  · exact hdeadline
  · intro looks n
    exact ⟨⟨_, Timer.rounds_eq _ looks n⟩, fun sleep => Timer.within_of_slept⟩
  · rintro α t p ht rfl
    rw [← ht] at hdeadline
    rw [← ht]
    exact Timer.exists_rounds_of_run hdeadline
  · rintro p q probe hfresh rfl
    obtain rfl := Except.ok.inj hfresh
    exact Probe.run_unbroken rfl hdeadline

/-- The literal of a delay may be infinite, and the run begin at the last instant allowed. -/
theorem read_keeps_time_of_infinite :
    let ask : Variable → Lookup := fun
      | .delay => .value "1e400d"
      | .file => .unset
    let settings : Settings := { delay := Delay.longest }
    let start := 2 ^ 62 * Duration.perSecond - 1
    (read ask).result = .ok settings ∧ start < 2 ^ 62 * Duration.perSecond ∧
      settings.KeepsTime start := by
  intro ask settings start
  have hread : (read ask).result = .ok settings := by
    rw [result_read_eq_ok_iff]
    exact ⟨.value (by decide +kernel), .unset⟩
  have hstart : start < 2 ^ 62 * Duration.perSecond := by decide
  exact ⟨hread, hstart, read_keeps_time hread hstart⟩

end Settings

end DeferredOpen
