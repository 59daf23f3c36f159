import DeferredOpen.Time.Clock

/-!
# Waiting for a deadline

A waiting timer looks at its flag, reads the clock, and sleeps for a short while, over and over.
One look decides what comes next: a raised flag ends the wait, else a clock at or past the
deadline lets the timer fire, else it sleeps until the deadline, but no longer than a millisecond.
`wait` follows a clock; `poll` takes what the looks see from any sequence.
-/

namespace DeferredOpen.Timer

/-- What one look sees: the flag first, then the clock. -/
structure Look where
  cancelled : Bool
  now : Nat
  deriving DecidableEq, Repr

inductive Verdict where
  | cancelled
  | due
  | sleep (length : Nat)
  deriving DecidableEq, Repr

def pollInterval : Nat := Duration.perMillisecond

/-- What a look leads to. A raised flag comes before the deadline. -/
def Look.verdict (deadline : Nat) (look : Look) : Verdict :=
  if look.cancelled then .cancelled
  else if deadline ≤ look.now then .due
  else .sleep (min (deadline - look.now) pollInterval)

theorem Look.lt_of_verdict_sleep {deadline : Nat} {look : Look} {length : Nat}
    (h : look.verdict deadline = .sleep length) :
    look.now < deadline ∧ length = min (deadline - look.now) pollInterval := by
  unfold verdict at h
  split at h
  · simp at h
  · split at h
    · simp at h
    · simp only [Verdict.sleep.injEq] at h
      exact ⟨by omega, h.symm⟩

structure Sleep where
  start : Nat
  length : Nat
  deriving DecidableEq, Repr

structure Wait where
  fired : Bool
  ended : Nat
  sleeps : List Sleep
  deriving DecidableEq, Repr

/-- What a look at `now` sees, when the flag is raised at the instants that `raised` says. -/
def lookAt (clock : Clock) (raised : Nat → Bool) (now : Nat) : Look :=
  ⟨raised now, clock.reading now⟩

def wait (clock : Clock) (raised : Nat → Bool) (deadline now : Nat) : Wait :=
  match _h : (lookAt clock raised now).verdict deadline with
  | .cancelled => ⟨false, clock.reading now, []⟩
  | .due => ⟨true, clock.reading now, []⟩
  | .sleep length =>
    let later := wait clock raised deadline (clock.waking (clock.reading now) length)
    { later with sleeps := ⟨clock.reading now, length⟩ :: later.sleeps }
termination_by deadline - now
decreasing_by
  obtain ⟨hlt, hlen⟩ := Look.lt_of_verdict_sleep _h
  have hr := clock.le_reading now
  have hw := clock.le_waking (clock.reading now) length
  simp only [lookAt, pollInterval, Duration.perMillisecond] at hlt hlen
  omega

section

variable {clock : Clock} {raised : Nat → Bool} {deadline now : Nat}

theorem wait_of_raised (h : raised now = true) :
    wait clock raised deadline now = ⟨false, clock.reading now, []⟩ := by
  rw [wait]
  split <;> simp_all [Look.verdict, lookAt]

theorem wait_of_due (h : raised now = false) (hd : deadline ≤ clock.reading now) :
    wait clock raised deadline now = ⟨true, clock.reading now, []⟩ := by
  rw [wait]
  split <;> simp_all [Look.verdict, lookAt]

end

/-- How a wait ends within the first looks of a sequence: whether the timer fires, if it ends. -/
def poll (deadline : Nat) (looks : Nat → Look) : Nat → Option Bool
  | 0 => none
  | n + 1 =>
    match poll deadline looks n with
    | some fired => some fired
    | none =>
      match (looks n).verdict deadline with
      | .cancelled => some false
      | .due => some true
      | .sleep _ => none

end DeferredOpen.Timer
