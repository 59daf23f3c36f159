import DeferredOpen.Files.Walk

/-!
# Changing a file tree

Changes are named by paths, and the tree may refuse them: what is there already is not made again,
a directory is not written, and in a removed directory nothing can be made.
-/

namespace DeferredOpen.Files

/-- The files after a change, or as they were if it is refused. -/
def attempt (files : Files) (change : Files → Except SystemFault Files) : Files :=
  match change files with
  | .ok changed => changed
  | .error _ => files

def create (files : Files) (path : Path) (entry : Entry) : Except SystemFault Files :=
  match files.location path with
  | .error e => .error e
  | .ok place =>
    if (files.get? place).isSome then .error .alreadyThere
    else if path.endsWithSlash ∧ entry ≠ .directory then .error .notFound
    else .ok (files.put place entry)

/-- Writes a file. Links are followed, also to a file that is not there yet. A file that could be
run before still can, and what is written to a device is lost. -/
def write (files : Files) (path : Path) (content : Content) (runnable : Bool) :
    Except SystemFault Files :=
  match files.follow .write path with
  | .error e => .error e
  | .ok spot =>
    match files.entryAt spot with
    | none | some (.link _) => .ok (files.put spot.place (.file content runnable))
    | some (.file _ before) => .ok (files.put spot.place (.file content (before || runnable)))
    | some .directory => .error .isDirectory
    | some .socket => .error .noDevice
    | some .device => .ok files

/-- Adds an entry. A file may be there before; all else needs a free name. -/
def add (files : Files) (path : Path) (entry : Entry) : Except SystemFault Files :=
  match entry with
  | .file content runnable => files.write path content runnable
  | entry => files.create path entry

def erase (files : Files) (path : Path) : Except SystemFault Files :=
  match files.location path with
  | .error e => .error e
  | .ok place =>
    match files.get? place with
    | none => .error .notFound
    | some entry =>
      if path.endsWithSlash ∧ entry ≠ .directory then .error .notDirectory
      else .ok (files.remove place)

/-- Takes away what stands under a path and is no directory. -/
def unlink (files : Files) (path : Path) : Except SystemFault Files :=
  match files.entryItself path with
  | .error e => .error e
  | .ok .directory => .error .isDirectory
  | .ok _ => files.erase path

/-- Whether an entry may take the place of another one. A directory only takes the place of an
empty directory, and nothing else takes the place of a directory. -/
def replaces (files : Files) (target : Place) (entry other : Entry) : Except SystemFault Unit :=
  if entry = .directory then
    if other ≠ .directory then .error .notDirectory
    else if files.namesIn target = [] then .ok ()
    else .error .notEmpty
  else if other = .directory then .error .isDirectory
  else .ok ()

def rename (files : Files) (source target : Path) : Except SystemFault Files := do
  let s ← files.location source
  let t ← files.location target
  match files.get? s with
  | none => .error .notFound
  | some entry =>
    if (source.endsWithSlash ∨ target.endsWithSlash) ∧ entry ≠ .directory then
      .error .notDirectory
    else if s = t then .ok files
    else if s.isPrefixOf t then .error .invalidArgument
    else match files.get? t with
    | none => .ok (files.move s t)
    | some other => (files.replaces t entry other).map fun _ => files.move s t

def enter (files : Files) (path : Path) : Except SystemFault Files :=
  match files.resolve path with
  | .error e => .error e
  | .ok spot =>
    if files.entryAt spot = some .directory then .ok { files with working := spot }
    else .error .notDirectory

/-- The bytes that reading from a path gives, where they are known. -/
def content? (files : Files) (path : Path) : Option Bytes :=
  match files.entry path with
  | .ok (.file (.data bytes) _) => some bytes
  | .ok .device => some []
  | _ => none

/-- The files of a system with a command interpreter, a null device and an empty directory to
work in. -/
def standard : Files :=
  let named (s : String) : Bytes := Utf8.encode s
  { entries := [
      ([named "dev"], .directory),
      ([named "dev", named "null"], .device),
      ([named "bin"], .directory),
      ([named "bin", named "sh"], .executable .shell),
      ([named "work"], .directory),
      ([named "work", named "root"], .directory)]
    working := { place := [named "work", named "root"] } }

end DeferredOpen.Files
