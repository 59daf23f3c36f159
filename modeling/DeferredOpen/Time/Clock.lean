import DeferredOpen.Time.Duration

/-!
# Instants and clocks

Instants are numbers of nanoseconds from the clock's own beginning, and end with second 2^63. A
clock says how much time goes by where a program cannot choose it: between looking at something
and reading the time, and in a sleep. It never goes back and never ends a sleep early.
-/

namespace DeferredOpen

namespace Instant

/-- The first instant that cannot be told. -/
def limit : Nat := Nat.pow 2 63 * Duration.perSecond

/-- The instant a duration later, if there is one. -/
def after? (t : Nat) (d : Duration) : Option Nat :=
  if t + d.nanos < limit then some (t + d.nanos) else none

end Instant

/-- How time goes by. `reading t` is what a program reads that has just done something at `t`,
and `waking t d` is when a sleep of `d` nanoseconds begun at `t` is over. -/
structure Clock where
  reading : Nat → Nat
  waking : Nat → Nat → Nat
  le_reading : ∀ t, t ≤ reading t
  le_waking : ∀ t d, t + d ≤ waking t d

namespace Clock

/-- A clock on which sleeps are exact and nothing else takes time. -/
def exact : Clock where
  reading t := t
  waking t d := t + d
  le_reading _ := Nat.le_refl _
  le_waking _ _ := Nat.le_refl _

instance : Inhabited Clock := ⟨exact⟩

end Clock

end DeferredOpen
