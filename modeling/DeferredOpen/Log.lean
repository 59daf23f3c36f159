import DeferredOpen.Command
import DeferredOpen.Role
import DeferredOpen.Settings

/-!
# Log records

A record says what happened; its level, its source and its wording follow from that. How a
descriptor, a process number, a path of a program and a call stack are written is left to the
reader of the log, because they differ from run to run.
-/

namespace DeferredOpen.Log

inductive Level where
  | error
  | warn
  | info
  | debug
  | trace
  deriving DecidableEq, Repr

namespace Level

def name : Level → String
  | .error => "ERROR"
  | .warn => "WARN"
  | .info => "INFO"
  | .debug => "DEBUG"
  | .trace => "TRACE"

def detail : Level → Nat
  | .error => 1
  | .warn => 2
  | .info => 3
  | .debug => 4
  | .trace => 5

end Level

/-- The most detailed level that is kept; none at all when logging is off. -/
abbrev Threshold := Option Level

namespace Threshold

/-- The threshold that a word names, in letters of either case. -/
def ofWord? (word : String) : Option Threshold :=
  match String.ofList (word.toList.map Char.toLower) with
  | "off" => some none
  | "error" => some (some .error)
  | "warn" => some (some .warn)
  | "info" => some (some .info)
  | "debug" => some (some .debug)
  | "trace" => some (some .trace)
  | _ => none

def keeps (t : Threshold) (level : Level) : Bool := t.any fun most => level.detail ≤ most.detail

end Threshold

inductive Record where
  | playing (role : Role)
  | probing (settings : Settings)
  | reading (file : Path) (delay : Duration)
  | timerCancelled
  | timerFired (delay : Duration)
  | opened (path : Path) (descriptor : Nat)
  | spawned (command : Command) (pid : Nat)
  | launched (pid : Nat)
  | failed (stack : Fault.CallStack)
  deriving DecidableEq, Repr

/-- How the parts of a record are written that differ from run to run. -/
structure Wording where
  descriptor : Nat → String := toString
  pid : Nat → String := toString
  app : Path → String := Path.shown
  stack : Fault.CallStack → String := "\n".intercalate

namespace Record

def level : Record → Level
  | .timerFired _ => .trace
  | .launched _ => .info
  | _ => .debug

def source : Record → String
  | .playing _ | .probing _ => "fork_probe_driver"
  | .reading _ _ => "fork_probe_driver::probe"
  | .launched _ => "fork_probe_driver::launcher"
  | .timerCancelled | .timerFired _ => "fork_probe::timer"
  | .opened _ _ => "fork_probe::fs"
  | .spawned _ _ => "fork_probe::process"
  | .failed _ => "fork_probe"

def message (w : Wording) : Record → String
  | .playing role => "running as " ++ role.name
  | .probing settings => "probing with " ++ settings.text
  | .reading file delay => "reading '" ++ file.shown ++ "' in " ++ delay.text
  | .timerCancelled => "timer cancelled"
  | .timerFired delay => "timer fired after " ++ delay.text
  | .opened path descriptor =>
    "opened '" ++ path.shown ++ "' as descriptor " ++ w.descriptor descriptor
  | .spawned command pid =>
    "spawned '" ++ w.app command.app ++ "' " ++ Quoted.list command.arguments ++
      " with pid " ++ w.pid pid
  | .launched pid => "launched probe with pid " ++ w.pid pid
  | .failed stack => w.stack stack

def line (w : Wording) (r : Record) : String :=
  r.level.name ++ " " ++ r.source ++ ": " ++ r.message w

end Record

end DeferredOpen.Log
