import DeferredOpen.Program

/-!
# Operations of a session

A session works on probes, timers, handles and launchers by name. These are the things it can be
asked to do, and what it answers.
-/

namespace DeferredOpen.Session

inductive Task where
  | give (text : String)
  | panic
  deriving DecidableEq, Repr

inductive Operation where
  | add (path : Path) (entry : Entry)
  | erase (path : Path)
  | rename (source target : Path)
  | enter (path : Path)
  | openFile (path : Path)
  | makeProbe (name : String) (source : Settings.Source)
  | probeState (name : String)
  | probeHandle (name handle : String)
  | runProbe (name : String) (out : Sink) (cancelAfter : Option Duration)
  | probeOnce (source : Settings.Source) (out : Sink)
  | makeTimer (name : String) (delay : Duration) (task : Task)
  | timerDelay (name : String)
  | timerHandle (name handle : String)
  | runTimer (name : String) (cancelAfter : Option Duration)
  | copyHandle (name handle : String)
  | cancel (name : String)
  | isCancelled (name : String)
  | drop (name : String)
  | start (command : Command)
  | makeLauncher (name : String) (command : Command)
  | runLauncher (name : String) (out : Sink)

inductive Answer where
  | done
  | unknownName
  | stopped (stop : Stop)
  | opened (descriptor : Descriptor)
  | settings (settings : Settings)
  | state (state : Probe.State)
  | handleTaken (taken : Bool)
  | delay (delay : Duration)
  | fired (text : String) (elapsed : Bool)
  | notFired
  | cancelled (cancelled : Bool)
  | dropped (known : Bool)
  | command (command : Command)
  | childEnded (code : Option Nat) (recorded : Option Bytes)
  | probeRan (result : Except Stop (Option Descriptor)) (out : Sink) (state : Probe.State)
  | probedOnce (result : Except Stop (Option Descriptor)) (out : Sink)
  | launcherRan (result : Except Stop (Option Nat)) (out : Sink) (recorded : Option Bytes)

end DeferredOpen.Session
