/-!
# Roles

The program plays one of two roles, and its first argument decides which. Whatever stands behind
that argument is never looked at.
-/

namespace DeferredOpen

/-- What a run of the program does: start another one, or wait and open the file. -/
inductive Role where
  | launcher
  | probe
  deriving DecidableEq, Repr

namespace Role

def sentinel : String := "child"

/-- The role for an argument vector; its entry 0 is the name of the program. -/
def ofArguments (arguments : List String) : Role :=
  if arguments[1]? = some sentinel then .probe else .launcher

def name : Role → String
  | .launcher => "Launcher"
  | .probe => "Probe"

theorem ofArguments_eq_probe_iff (arguments : List String) :
    ofArguments arguments = .probe ↔ arguments[1]? = some sentinel := by
  unfold ofArguments
  split <;> simp_all

end Role

end DeferredOpen
