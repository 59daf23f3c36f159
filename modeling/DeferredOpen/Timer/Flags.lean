/-!
# Cancellation flags

Every timer has a flag of its own. A flag is raised once and for all; nothing lowers it, and
raising one leaves all others as they are.
-/

namespace DeferredOpen

/-- The identity of a timer's flag. Whoever holds it can cancel the timer. -/
structure Flag where
  id : Nat
  deriving DecidableEq, Repr, Inhabited

structure Flags where
  made : Nat := 0
  raised : List Flag := []
  deriving DecidableEq, Repr, Inhabited

namespace Flags

def next (f : Flags) : Flag := ⟨f.made⟩

def make (f : Flags) : Flags := { f with made := f.made + 1 }

def raise (f : Flags) (flag : Flag) : Flags := { f with raised := flag :: f.raised }

def isRaised (f : Flags) (flag : Flag) : Bool := f.raised.contains flag

@[simp] theorem isRaised_make (f : Flags) (flag : Flag) :
    f.make.isRaised flag = f.isRaised flag := rfl

@[simp] theorem isRaised_raise_self (f : Flags) (flag : Flag) :
    (f.raise flag).isRaised flag = true := by
  simp [raise, isRaised]

end Flags

end DeferredOpen
