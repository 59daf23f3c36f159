import DeferredOpen.Fault.Basic
import DeferredOpen.Image

/-!
# Commands

A command is the program to start and its arguments. `Command.image` finds what it starts: an
application with a slash in its name is a path, and any other is looked for in the directories of
the search path, one after the other.
-/

namespace DeferredOpen

structure Command where
  app : Path
  arguments : List String := []
  deriving DecidableEq, Repr, Inhabited

namespace Command

def append (c : Command) (arguments : List String) : Command :=
  { c with arguments := c.arguments ++ arguments }

@[simp] theorem app_append (c : Command) (as : List String) : (c.append as).app = c.app := rfl

@[simp] theorem arguments_append (c : Command) (as : List String) :
    (c.append as).arguments = c.arguments ++ as := rfl

def text (c : Command) : String :=
  "ProcessInfo \x7b app: " ++ c.app.quoted ++ ", args: " ++ Quoted.list c.arguments ++ " \x7d"

/-- Whether the application or an argument holds a NUL, which the system cannot pass on. -/
def holdsNul (c : Command) : Bool :=
  c.app.holdsNul || c.arguments.any fun a => (Utf8.encode a).contains 0

/-- How many bytes an argument must stay below. -/
def argumentLimit : Nat := 131072

def isTooLong (c : Command) : Bool :=
  c.arguments.any fun a => argumentLimit ≤ a.utf8ByteSize

/-- What is run for the first file with a name in some directories. Directories without it are
passed over; if one of them refused it, that is the fault in the end. -/
def search (files : Files) (name : Bytes) : SystemFault → List Path → Except SystemFault Image
  | fault, [] => .error fault
  | fault, directory :: rest =>
    match Image.load files ⟨directory.bytes ++ Path.slash :: name⟩ with
    | .ok image => .ok image
    | .error e =>
      if e = .notFound ∨ e = .notDirectory then search files name fault rest
      else if e = .denied then search files name .denied rest
      else .error e

def image (c : Command) (files : Files) (searchPath : List Path) : Except SystemFault Image :=
  if c.app.bytes = [] then .error .notFound
  else
    let found :=
      if c.app.bytes.contains Path.slash then Image.load files c.app
      else search files c.app.bytes .notFound searchPath
    match found with
    | .error e => .error e
    | .ok image => if c.isTooLong then .error .argumentsTooLong else .ok image

end Command

end DeferredOpen
