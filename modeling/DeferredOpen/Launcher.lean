import DeferredOpen.Process

/-!
# Launchers

A launcher announces itself, starts its command with the sentinel as the last argument, and takes
its leave. It does not wait for the child, and running it again starts another one.
-/

namespace DeferredOpen

structure Launcher where
  command : Command
  deriving DecidableEq, Repr, Inhabited

namespace Launcher

def ofCommand (c : Command) : Launcher := ⟨c.append [Role.sentinel]⟩

def announcement : String := "I'm parent. spawning\n"

def farewell : String := "exit\n"

def run (l : Launcher) : Action Child := do
  Action.write announcement
  Action.flush
  let child ← Action.start l.command
  Action.log (.launched child.pid)
  Action.write farewell
  Action.flush
  pure child

end Launcher

end DeferredOpen
