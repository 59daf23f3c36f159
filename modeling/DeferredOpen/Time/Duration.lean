/-!
# Durations

A duration is a whole number of nanoseconds. Its text takes the largest of the units second,
millisecond, microsecond and nanosecond that it reaches, and then all digits of the fraction
that count, so the text is exact.
-/

namespace DeferredOpen

structure Duration where
  nanos : Nat
  deriving DecidableEq, Repr, Inhabited

namespace Duration

def perSecond : Nat := 1000000000

def perMillisecond : Nat := 1000000

def perMicrosecond : Nat := 1000

def ofParts (seconds nanos : Nat) : Duration := ⟨seconds * perSecond + nanos⟩

def ofMilliseconds (n : Nat) : Duration := ⟨n * perMillisecond⟩

def ofMicroseconds (n : Nat) : Duration := ⟨n * perMicrosecond⟩

/-- A digit for every place down to one `unit`, the last ones dropped while they are zero. -/
def fractionDigits (rest unit : Nat) : List Char :=
  let places := (Nat.toDigits 10 unit).length - 1
  let digits := Nat.toDigits 10 rest
  let padded := List.replicate (places - digits.length) '0' ++ digits
  (padded.reverse.dropWhile (· = '0')).reverse

/-- A count of units and the exact fraction of the next one. -/
def inUnit (nanos unit : Nat) (name : String) : String :=
  let rest := nanos % unit
  let fraction := if rest = 0 then "" else "." ++ String.ofList (fractionDigits rest unit)
  toString (nanos / unit) ++ fraction ++ name

def text (d : Duration) : String :=
  if perSecond ≤ d.nanos then inUnit d.nanos perSecond "s"
  else if perMillisecond ≤ d.nanos then inUnit d.nanos perMillisecond "ms"
  else if perMicrosecond ≤ d.nanos then inUnit d.nanos perMicrosecond "µs"
  else inUnit d.nanos 1 "ns"

end Duration

end DeferredOpen
