import DeferredOpen.Descriptor
import DeferredOpen.Files.Change
import DeferredOpen.Log
import DeferredOpen.Time.Clock

/-!
# Worlds

Processes share a world: its files, its variables, and a system that answers requests. How the
system answers is part of the world, so that a statement about all worlds covers systems that
refuse more than the file tree shows, and files that change while a process sleeps.
-/

namespace DeferredOpen

structure World where
  files : Files
  environment : List (String × Bytes) := []
  /-- The path of this program, if the system can tell it. -/
  executable : Except SystemFault Path
  /-- Where programs are looked for that are named without a slash. -/
  searchPath : List Path := []
  /-- Whether the system lets a path be opened at an instant. -/
  access : Nat → Files → Path → Except SystemFault Unit := fun _ => Files.readable
  /-- What the system starts for a command. -/
  find : Files → Command → Except SystemFault Image :=
    fun files c => c.image files searchPath
  clock : Clock := .exact
  numbering : Numbering := .inOrder

namespace World

/-- A world with some files and variables, in which this program stands ready to be started. -/
def installed (files : Files) (environment : List (String × Bytes)) : World :=
  let app := Path.ofString "/program"
  { files := files.put app.names (.executable .itself)
    environment
    executable := .ok app
    searchPath := [.ofString "/bin"] }

/-- Whether a path can be opened at an instant. A path with a NUL never gets to the system, and of
the system's numbers only those with a meaning are passed on. -/
def opens (w : World) (now : Nat) (path : Path) : Except SystemFault Unit :=
  if path.holdsNul then .error .invalidArgument
  else (w.access now w.files path).mapError SystemFault.normalize

/-- What the environment says about a variable. Its bytes have to spell a text. -/
def answer (w : World) (v : Variable) : Lookup :=
  match w.environment.lookup v.name with
  | none => .unset
  | some bytes =>
    match Utf8.decode? bytes with
    | some text => .value text
    | none => .failed (v.name ++ " is not valid unicode")

end World

end DeferredOpen
