/-!
# Binary floating numbers of 64 bits

A finite number is a whole count of units of 2^-1074 with a sign, so arithmetic on magnitudes is
arithmetic on `Nat`. `Binary64.round` takes any quotient of naturals to the nearest of them: the
spacing is one unit up to 2^53 units and doubles with every further bit, a value halfway between
two neighbours goes to the even one, and from 2^1024 on there is only infinity.
-/

namespace DeferredOpen

/-- A number of 64 bits: sign, eleven bits of exponent, 52 of fraction. -/
inductive Binary64 where
  | nan
  | infinite (negative : Bool)
  | finite (negative : Bool) (units : Nat)
  deriving DecidableEq, Repr

namespace Binary64

def one : Nat := Nat.pow 2 1074

/-- The first count of units that is too large to be finite. -/
def limit : Nat := Nat.pow 2 1024 * one

/-- The nearest natural to a quotient; a half goes to the even neighbour. -/
def roundHalfEven (num den : Nat) : Nat :=
  let q := num / den
  let r := num % den
  if 2 * r < den then q
  else if den < 2 * r then q + 1
  else q + q % 2

def spacing (units : Nat) : Nat := Nat.pow 2 (units.log2 - 52)

/-- The count of units nearest to a quotient among those that 53 bits can hold. -/
def nearest (num den : Nat) : Nat :=
  let step := spacing (num / den)
  roundHalfEven num (den * step) * step

def round (negative : Bool) (num den : Nat) : Binary64 :=
  let units := nearest num den
  if units < limit then .finite negative units else .infinite negative

def ofDecimal (negative : Bool) (coefficient : Nat) (exponent : Int) : Binary64 :=
  if 0 ≤ exponent then round negative (coefficient * Nat.pow 10 exponent.toNat * one) 1
  else round negative (coefficient * one) (Nat.pow 10 (-exponent).toNat)

/-- The nearest number to a product. Zero times infinity is no number. -/
def mul : Binary64 → Binary64 → Binary64
  | .finite s a, .finite t b => round (s ^^ t) (a * b) one
  | .finite s a, .infinite t => if a = 0 then .nan else .infinite (s ^^ t)
  | .infinite s, .finite t b => if b = 0 then .nan else .infinite (s ^^ t)
  | .infinite s, .infinite t => .infinite (s ^^ t)
  | .nan, _ => .nan
  | _, .nan => .nan

instance : Mul Binary64 := ⟨mul⟩

/-- Whether a number is zero or more. Both zeros are; what is no number is not. -/
def isNonneg : Binary64 → Bool
  | .finite negative units => !negative || units = 0
  | .infinite negative => !negative
  | .nan => false

/-- The whole part of a number, held in the range of `width` bits. -/
def toWhole (width : Nat) : Binary64 → Nat
  | .finite negative units => if negative then 0 else min (units / one) (Nat.pow 2 width - 1)
  | .infinite negative => if negative then 0 else Nat.pow 2 width - 1
  | .nan => 0

end Binary64

end DeferredOpen
