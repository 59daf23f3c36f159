import DeferredOpen.Launcher
import DeferredOpen.Probe
import DeferredOpen.Shell.Interpreter

/-!
# The program

A run of the program plays the role that its arguments ask for, and ends as a process with an exit
code: 0 after a run that came to its end, 1 after a fault, which is told, and 101 after a panic.
The children of a process are run in the same world.
-/

namespace DeferredOpen

inductive Outcome where
  | launched (child : Child)
  | probed (descriptor : Option Descriptor)

/-- What a process has left on its error stream. -/
inductive Complaint where
  | none
  | fault (text : String)
  | panic
  deriving DecidableEq, Repr

/-- A process at its end. A process without an exit code was killed or never ends. -/
structure Ended where
  code : Option Nat
  complaint : Complaint
  process : Process

namespace Program

def launch : Action Child := do
  let command ← Action.thisProgram
  (Launcher.ofCommand command).run

def run (arguments : List String) : Action Outcome := do
  let role := Role.ofArguments arguments
  Action.log (.playing role)
  match role with
  | .launcher => Outcome.launched <$> launch
  | .probe => do
    let settings ← Action.settings
    Outcome.probed <$> Probe.runWith settings

def complaintLine (fault : Fault) : String := "error: " ++ fault.text ++ "\n"

def finish : Except Stop α × Process → Ended
  | (.ok _, p) => ⟨some 0, .none, p⟩
  | (.error (.failed fault), p) =>
    ⟨some 1, .fault (complaintLine fault), p.after (.logged (.failed fault.stack))⟩
  | (.error .panicked, p) => ⟨some 101, .panic, p⟩
  | (.error .endless, p) => ⟨none, .none, p⟩

/-- The entries of an argument vector that decide the role, as texts. -/
def decisive? (arguments : List Bytes) : Option (List String) :=
  (arguments.take 2).mapM Utf8.decode?

/-- Runs the program as a process. The entries that decide the role have to spell texts. -/
def main (arguments : List Bytes) (p : Process) : Ended :=
  match decisive? arguments with
  | none => ⟨some 101, .panic, p⟩
  | some texts => finish ((run texts).runIn p)

end Program

namespace Child

def arguments (c : Child) : List Bytes :=
  c.image.arguments c.command.app.bytes (c.command.arguments.map Utf8.encode)

def run (c : Child) (parent : Process) : Ended :=
  let p := parent.fresh
  let withFiles (files : Files) : Process := { p with world := { p.world with files } }
  match c.image.program with
  | .itself => Program.main c.arguments p
  | .recorder =>
    ⟨some 0, .none, withFiles (Recorder.run p.world.files (c.arguments.drop 1))⟩
  | .shell =>
    let (ending, files) := Shell.run p.world.files p.world.searchPath c.arguments
    ⟨ending.bind Shell.Ending.code?, .none, withFiles files⟩

end Child

def Process.childrenEnded (p : Process) : List Ended := p.children.map fun c => c.run p

end DeferredOpen
