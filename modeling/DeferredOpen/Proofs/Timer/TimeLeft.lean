import DeferredOpen.Proofs.Timer.Firing

/-!
# The time that is left

Between two looks a timer sleeps for a part of the time that is left until its deadline. Behind the
deadline there is no such time, and a round that had to tell it would break. No round has to: the
time that is left is told where the deadline is still to come, and nowhere else.
-/

namespace DeferredOpen

/-- The time from an instant until a later one. There is none back to an earlier one. -/
def Instant.until? (t later : Nat) : Option Duration :=
  if t ≤ later then some ⟨later - t⟩ else none

namespace Timer

/-- What a look leads to, if the time that is left can be told where it has to be. -/
def Look.round (deadline : Nat) (look : Look) : Except Stop Verdict :=
  if look.cancelled then .ok .cancelled
  else if deadline ≤ look.now then .ok .due
  else match Instant.until? look.now deadline with
    | some left => .ok (.sleep (min left.nanos pollInterval))
    | none => .error .panicked

/-- What comes of the first rounds of a run, each of which may break it. -/
def rounds (deadline : Nat) (looks : Nat → Look) : Nat → Except Stop (Option Bool)
  | 0 => .ok none
  | n + 1 =>
    match rounds deadline looks n with
    | .ok none => ((looks n).round deadline).map Verdict.ending?
    | ended => ended

/-- A sleep that is begun before the deadline and does not go past it. -/
structure Sleep.Within (deadline : Nat) (sleep : Sleep) : Prop where
  early : sleep.start < deadline
  length : sleep.length = min (deadline - sleep.start) pollInterval

variable {deadline n : Nat} {looks : Nat → Look}

/-- No round breaks. -/
theorem Look.round_eq (deadline : Nat) (look : Look) :
    look.round deadline = .ok (look.verdict deadline) := by
  unfold round verdict
  split
  · rfl
  · split
    · rfl
    · next hlate =>
      rw [Instant.until?, if_pos (Nat.le_of_not_le hlate)]

theorem rounds_eq (deadline : Nat) (looks : Nat → Look) (n : Nat) :
    rounds deadline looks n = .ok (poll deadline looks n) := by
  induction n with
  | zero => rfl
  | succ n ih =>
    rw [rounds, ih]
    cases hbefore : poll deadline looks n with
    | none =>
      dsimp only
      rw [Look.round_eq, poll_succ_of_none hbefore]
      rfl
    | some fired => rw [poll_succ_of_some hbefore]

theorem Look.within_of_slept {look : Look} {sleep : Sleep}
    (h : .slept sleep ∈ look.deeds deadline) : sleep.Within deadline := by
  unfold deeds at h
  cases hverdict : look.verdict deadline with
  | cancelled | due => simp [hverdict] at h
  | sleep length =>
    obtain ⟨hlt, hlength⟩ := Look.lt_of_verdict_sleep hverdict
    obtain rfl : sleep = ⟨look.now, length⟩ := by simpa [hverdict] using h
    exact ⟨hlt, hlength⟩

/-- Whatever a run gets to see, it sleeps within its deadline. -/
theorem within_of_slept {sleep : Sleep} (h : .slept sleep ∈ deeds deadline looks n) :
    sleep.Within deadline := by
  induction n with
  | zero => cases h
  | succ n ih =>
    obtain h | h := List.mem_append.mp h
    · exact ih h
    · split at h
      · cases h
      · exact Look.within_of_slept h

/-- A run in a process goes through its rounds until one of them ends it. -/
theorem exists_rounds_of_run {t : Timer α} {p : Process}
    (hdeadline : Instant.after? (p.world.clock.reading p.now) t.delay = some deadline) :
    ∃ last fired, rounds deadline (t.lookIn p) last = .ok (some fired) ∧
      (t.run.runIn p).1 = .ok (if fired then some t.task else none) := by
  obtain ⟨last, hlast⟩ := exists_poll_eq_wait p.world.clock (p.raisedAt t.flag) deadline
    (p.world.clock.reading p.now)
  have hlooks : t.lookIn p = fun i => lookAt p.world.clock (p.raisedAt t.flag)
      (instant p.world.clock deadline (p.world.clock.reading p.now) i) := by
    funext i
    rw [lookIn, seeing, ← Instant.eq_of_after? hdeadline]
  refine ⟨last, (waitIn t.flag p deadline).fired, ?_, ?_⟩
  · rw [rounds_eq, hlooks, hlast]
    rfl
  · rw [run_runIn hdeadline]
    dsimp only
    split <;> rfl

end Timer

end DeferredOpen
