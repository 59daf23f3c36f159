import DeferredOpen.Path

/-!
# File trees

A tree holds entries under places, and a place is the names from the root down. The root itself
is always a directory. Those who use the tree work in one of its directories, and stay in it when
it is moved or removed: a removed directory is empty for ever, and the way up still leads out.
-/

namespace DeferredOpen

/-- The names that lead from the root to an entry. -/
abbrev Place := List Bytes

inductive Program where
  /-- This program. -/
  | itself
  /-- A script that writes its arguments into the file `recorded`, one a line. -/
  | recorder
  /-- The system's command interpreter. -/
  | shell
  deriving DecidableEq, Repr

inductive Content where
  | data (bytes : Bytes)
  | program (program : Program)
  deriving DecidableEq, Repr

inductive Entry where
  | directory
  | file (content : Content) (runnable : Bool)
  | link (target : Path)
  | socket
  | device
  deriving DecidableEq, Repr

namespace Entry

def plain (bytes : Bytes) : Entry := .file (.data bytes) false

def executable (program : Program) : Entry := .file (.program program) true

end Entry

/-- A directory as it is for those who are in it: the place of the nearest directory that is still
in the tree, and how many removed directories lead down from there. -/
structure Spot where
  place : Place := []
  removed : Nat := 0
  deriving DecidableEq, Repr

namespace Spot

def up (s : Spot) : Spot :=
  match s.removed with
  | 0 => { s with place := s.place.dropLast }
  | left + 1 => { s with removed := left }

/-- What becomes of a directory when a place is taken away with all that is under it. -/
def without (s : Spot) (place : Place) : Spot :=
  if place.isPrefixOf s.place then
    ⟨place.dropLast, s.place.length + 1 - place.length + s.removed⟩
  else s

end Spot

/-- The entries of a file system, and the working directory of those who use it. -/
structure Files where
  entries : List (Place × Entry) := []
  working : Spot := {}
  deriving DecidableEq, Repr

namespace Files

def get? (files : Files) (place : Place) : Option Entry :=
  if place = [] then some .directory else files.entries.lookup place

/-- The entry at a spot. A removed directory is a directory. -/
def entryAt (files : Files) (spot : Spot) : Option Entry :=
  if spot.removed = 0 then files.get? spot.place else some .directory

def namesIn (files : Files) (place : Place) : List Bytes :=
  files.entries.filterMap fun e => if e.1.dropLast = place then e.1.getLast? else none

/-- Takes away a place and all that is under it. -/
def remove (files : Files) (place : Place) : Files :=
  { entries := files.entries.filter fun e => !place.isPrefixOf e.1
    working := files.working.without place }

/-- Puts an entry at a place, instead of one that is there. -/
def put (files : Files) (place : Place) (entry : Entry) : Files :=
  { files with entries := (place, entry) :: files.entries.filter fun e => e.1 ≠ place }

/-- Where a place is after `source` has become `target`. -/
def relocate (source target place : Place) : Place :=
  if source.isPrefixOf place then target ++ place.drop source.length else place

/-- Gives a place and all that is under it another place, which is cleared before. -/
def move (files : Files) (source target : Place) : Files :=
  let cleared := if source = target then files else files.remove target
  { entries := cleared.entries.map fun e => (relocate source target e.1, e.2)
    working := { cleared.working with
      place := relocate source target cleared.working.place } }

@[simp] theorem get?_root (files : Files) : files.get? [] = some .directory := rfl

@[simp] theorem get?_put_self (files : Files) {place : Place} (entry : Entry)
    (h : place ≠ []) : (files.put place entry).get? place = some entry := by
  simp [get?, put, h]

@[simp] theorem working_put (files : Files) (place : Place) (entry : Entry) :
    (files.put place entry).working = files.working := rfl

end Files

end DeferredOpen
