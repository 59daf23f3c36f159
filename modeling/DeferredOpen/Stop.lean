import DeferredOpen.Fault.Basic

/-!
# How a run stops early
-/

namespace DeferredOpen

inductive Stop where
  /-- A fault, which the caller gets to see. -/
  | failed (fault : Fault)
  /-- A broken assumption, which ends the whole process. -/
  | panicked
  /-- The run goes on for ever: a write is interrupted each time it is tried again. -/
  | endless
  deriving DecidableEq, Repr

end DeferredOpen
