import DeferredOpen.Files.Tree
import DeferredOpen.Fault.SystemFault

/-!
# Walking along paths

`Files.walk` goes from a directory along the names of a path. A link is replaced by the names of
its target, at most forty times on one way; a name has at most 255 bytes, and only in a directory
can something be looked for. `Files.follow` starts at the root or in the working directory and
refuses paths that the system does not take at all.
-/

namespace DeferredOpen.Files

def maxLinks : Nat := 40

def maxName : Nat := 255

/-- How many bytes a path must stay below. -/
def pathLimit : Nat := 4096

/-- The names that a walk takes. A slash at the end asks for a directory, as a dot does. -/
def steps (path : Path) : List Bytes :=
  if path.endsWithSlash then path.names ++ [Path.dot] else path.names

/-- The directory where a path starts that is met in `spot`. -/
def origin (spot : Spot) (path : Path) : Spot := if path.isAbsolute then {} else spot

inductive Purpose where
  /-- To find what is there. -/
  | find
  /-- To write a file. The last name may be free: that is where the file is made. -/
  | write
  deriving DecidableEq, Repr

def walk (files : Files) (purpose : Purpose) (links : Nat) (spot : Spot) (names : List Bytes) :
    Except SystemFault Spot :=
  match names with
  | [] => .ok spot
  | name :: rest =>
    if (files.entryAt spot).any (· ≠ .directory) then .error .notDirectory
    else if name = Path.dot then files.walk purpose links spot rest
    else if name = Path.dotDot then files.walk purpose links spot.up rest
    else if spot.removed ≠ 0 then .error .notFound
    else if maxName < name.length then .error .nameTooLong
    else
      let place := spot.place ++ [name]
      match files.get? place with
      | none => if purpose = .write ∧ rest = [] then .ok { place } else .error .notFound
      | some (.link target) =>
        match links with
        | 0 => .error .tooManyLinks
        | left + 1 => files.walk purpose left (origin spot target) (steps target ++ rest)
      | some _ => files.walk purpose links { place } rest
termination_by (links, names.length)

def follow (files : Files) (purpose : Purpose) (path : Path) : Except SystemFault Spot :=
  if path.bytes = [] then .error .notFound
  else if pathLimit ≤ path.bytes.length then .error .nameTooLong
  else files.walk purpose maxLinks (origin files.working path) (steps path)

def resolve (files : Files) (path : Path) : Except SystemFault Spot := files.follow .find path

def entry (files : Files) (path : Path) : Except SystemFault Entry :=
  match files.resolve path with
  | .error e => .error e
  | .ok spot =>
    match files.entryAt spot with
    | some entry => .ok entry
    | none => .error .notFound

/-- The place where an entry with this path stands or would stand: the last name is taken as it
is, also when it is a link. -/
def location (files : Files) (path : Path) : Except SystemFault Place :=
  if pathLimit ≤ path.bytes.length then .error .nameTooLong
  else match path.names.getLast? with
  | none => .error .notFound
  | some name =>
    match files.walk .find maxLinks (origin files.working path) path.names.dropLast with
    | .error e => .error e
    | .ok spot =>
      if (files.entryAt spot).any (· ≠ .directory) then .error .notDirectory
      else if name = Path.dot ∨ name = Path.dotDot then .error .invalidArgument
      else if spot.removed ≠ 0 then .error .notFound
      else if maxName < name.length then .error .nameTooLong
      else .ok (spot.place ++ [name])

/-- What stands under a path, a link at the end not followed. -/
def entryItself (files : Files) (path : Path) : Except SystemFault Entry :=
  if path.endsWithSlash ∨ path.names.getLast?.any fun n => n = Path.dot ∨ n = Path.dotDot then
    files.entry path
  else match files.location path with
  | .error e => .error e
  | .ok place =>
    match files.get? place with
    | some entry => .ok entry
    | none => .error .notFound

def readable (files : Files) (path : Path) : Except SystemFault Unit :=
  match files.entry path with
  | .error e => .error e
  | .ok .socket => .error .noDevice
  | .ok _ => .ok ()

end DeferredOpen.Files
