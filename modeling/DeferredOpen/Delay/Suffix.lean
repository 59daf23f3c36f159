import DeferredOpen.Number.Binary64

/-!
# Suffixes of delays

A suffix is a unit, a degree, or a degree and a unit. The letter `m` is in both tables; alone it
is the degree.
-/

namespace DeferredOpen.Delay

def unit? : Char → Option Binary64
  | 's' => some (.ofDecimal false 1 0)
  | 'm' => some (.ofDecimal false 60 0)
  | 'h' => some (.ofDecimal false 3600 0)
  | 'd' => some (.ofDecimal false 86400 0)
  | _ => none

def degree? : Char → Option Binary64
  | 'm' => some (.ofDecimal false 1 (-3))
  | 'u' => some (.ofDecimal false 1 (-6))
  | 'n' => some (.ofDecimal false 1 (-9))
  | _ => none

/-- What a suffix multiplies a number by, to give seconds. -/
def multiplier? : List Char → Option Binary64
  | [] => some (.ofDecimal false 1 0)
  | [a] => (degree? a).or (unit? a)
  | [a, b] => do
    let degree ← degree? a
    let unit ← unit? b
    some (degree * unit)
  | _ => none

end DeferredOpen.Delay
