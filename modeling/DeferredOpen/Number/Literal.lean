import DeferredOpen.Number.Binary64

/-!
# Decimal literals

A literal is digits with at most one point among or beside them, an optional sign before and an
optional exponent behind. `Literal.read?` reads a whole text as one, and `Literal.value` is the
nearest binary number. The words for infinity and for no number are read by `Number.read?` only.
-/

namespace DeferredOpen

structure Literal where
  negative : Bool
  whole : List Char
  fraction : List Char
  exponent : Int
  deriving DecidableEq, Repr

namespace Literal

def digitsValue (ds : List Char) : Nat := ds.foldl (fun n d => n * 10 + (d.toNat - '0'.toNat)) 0

/-- A sign and what follows it; no sign counts as plus. -/
def sign : List Char → Bool × List Char
  | '-' :: rest => (true, rest)
  | '+' :: rest => (false, rest)
  | rest => (false, rest)

def digits (cs : List Char) : List Char × List Char :=
  (cs.takeWhile Char.isDigit, cs.dropWhile Char.isDigit)

theorem digits_append (cs : List Char) : (digits cs).1 ++ (digits cs).2 = cs :=
  List.takeWhile_append_dropWhile

/-- An exponent that takes up the whole text; none at all is zero. -/
def exponent? : List Char → Option Int
  | [] => some 0
  | mark :: rest =>
    if mark = 'e' ∨ mark = 'E' then
      let (negative, body) := sign rest
      if body ≠ [] ∧ body.all Char.isDigit then
        some (if negative then -(digitsValue body : Int) else digitsValue body)
      else none
    else none

/-- The fraction behind a point, and what follows it; without a point there is none. -/
def pointed : List Char → List Char × List Char
  | '.' :: rest => digits rest
  | rest => ([], rest)

/-- Reads a whole text as a literal. At least one digit stands beside the point. -/
def read? (cs : List Char) : Option Literal :=
  let (negative, unsigned) := sign cs
  let (whole, afterWhole) := digits unsigned
  let (fraction, afterFraction) := pointed afterWhole
  if whole = [] ∧ fraction = [] then none
  else (exponent? afterFraction).map fun e => ⟨negative, whole, fraction, e⟩

def coefficient (l : Literal) : Nat := digitsValue (l.whole ++ l.fraction)

def scale (l : Literal) : Int := l.exponent - l.fraction.length

/-- The number nearest to a literal. A literal of 10^310 and more is infinite whatever its digits
are, and one under 10^-330 is zero, so no large power is computed for either. -/
def value (l : Literal) : Binary64 :=
  if l.coefficient = 0 ∨ (l.whole ++ l.fraction).length + l.scale < -330 then
    .finite l.negative 0
  else if 310 < l.scale then .infinite l.negative
  else Binary64.ofDecimal l.negative l.coefficient l.scale

end Literal

namespace Number

/-- Reads a whole text as a number: a literal, or a word in letters of either case. -/
def read? (cs : List Char) : Option Binary64 :=
  match Literal.read? cs with
  | some l => some l.value
  | none =>
    let (negative, unsigned) := Literal.sign cs
    let word := String.ofList (unsigned.map Char.toLower)
    if word = "inf" ∨ word = "infinity" then some (.infinite negative)
    else if word = "nan" then some .nan
    else none

end Number

end DeferredOpen
