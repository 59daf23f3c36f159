import DeferredOpen.Delay.Split
import DeferredOpen.Delay.Suffix
import DeferredOpen.Number.Literal
import DeferredOpen.Time.Duration

/-!
# Reading a delay text

`Delay.read` multiplies the number of a text by its suffix and then by a million, in 64-bit
arithmetic and in that order, and drops the fraction of the last microsecond. It tells three ends
apart: a duration, a text that is no delay, and a text that is cut inside a character.
-/

namespace DeferredOpen.Delay

inductive Reading where
  | accepted (d : Duration)
  | invalid
  | cutInsideCharacter
  deriving DecidableEq, Repr

/-- The number and the multiplier of a text that has been split. -/
def measure? (number suffix : List Char) : Option (Binary64 × Binary64) := do
  let value ← Number.read? number
  let multiplier ← multiplier? suffix
  some (value, multiplier)

/-- The whole microseconds in `value` times `multiplier` seconds, at most 2^64 - 1. -/
def microseconds (value multiplier : Binary64) : Nat :=
  (value * multiplier * .ofDecimal false 1000000 0).toWhole 64

/-- Reads a delay text. A delay is not negative. -/
def read (cs : List Char) : Reading :=
  match split cs with
  | none => .cutInsideCharacter
  | some (number, suffix) =>
    match measure? number suffix with
    | some (value, multiplier) =>
      if value.isNonneg then .accepted (.ofMicroseconds (microseconds value multiplier))
      else .invalid
    | none => .invalid

end DeferredOpen.Delay
