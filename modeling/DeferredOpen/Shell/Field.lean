import DeferredOpen.Shell.Pattern
import DeferredOpen.Shell.State

/-!
# Fields

Expanding a word gives marks: characters, of which it is known whether they were quoted and
whether an expansion gave them. Characters from expansions are split into fields where separators
stand; a field that is a pattern becomes the paths that fit it.
-/

namespace DeferredOpen.Shell

/-- A piece of an expanded word. -/
inductive Mark where
  | char (c : Char) (quoted result : Bool)
  /-- Between one argument and the next. -/
  | gap
  /-- A quoted text without characters. -/
  | empty
  deriving DecidableEq, Repr

namespace Mark

def ofText (t : Text) (quoted : Bool) : List Mark :=
  if t.isEmpty ∧ quoted then [.empty] else t.map fun c => .char c quoted false

/-- The marks of a text that an expansion gives. -/
def ofResult (t : Text) (quoted : Bool) : List Mark :=
  if t.isEmpty ∧ quoted then [.empty] else t.map fun c => .char c quoted true

def joined (marks : List Mark) : Text :=
  marks.filterMap fun
    | .char c _ _ => some c
    | .gap => some ' '
    | .empty => none

def marked (marks : List Mark) : List Marked :=
  marks.filterMap fun
    | .char c quoted _ => some (c, quoted)
    | .gap => some (' ', false)
    | .empty => none

end Mark

structure Splitting where
  done : List (List Marked) := []
  /-- The field that has begun. -/
  current : Option (List Marked) := none
  /-- Whether the last field was closed by white space alone. -/
  closedByBlank : Bool := false

namespace Splitting

def close (f : Splitting) : Splitting :=
  match f.current with
  | some cs => { f with done := f.done ++ [cs], current := none }
  | none => f

def step (separators : Text) (f : Splitting) : Mark → Splitting
  | .gap => { f.close with closedByBlank := false }
  | .empty => { f with current := some (f.current.getD []), closedByBlank := false }
  | .char c quoted result =>
    if result ∧ ¬ quoted ∧ separators.contains c then
      if c = ' ' ∨ c = '\t' ∨ c = '\n' then
        if f.current.isSome then { f.close with closedByBlank := true } else f
      else if f.current.isSome then { f.close with closedByBlank := false }
      else if f.closedByBlank then { f with closedByBlank := false }
      else { f with done := f.done ++ [[]] }
    else { f with current := some (f.current.getD [] ++ [(c, quoted)]), closedByBlank := false }

end Splitting

def splitFields (separators : Text) (marks : List Mark) : List (List Marked) :=
  (marks.foldl (Splitting.step separators) {}).close.done

/-- The stretches of a pattern between slashes. -/
def stretches : List Marked → List (List Marked)
  | [] => [[]]
  | (c, quoted) :: rest =>
    if c = '/' then [] :: stretches rest
    else match stretches rest with
      | s :: ss => ((c, quoted) :: s) :: ss
      | [] => [[(c, quoted)]]

def namesAt (files : Files) (path : Text) : List Text :=
  match files.resolve ⟨if path.isEmpty then Path.dot else path.toBytes⟩ with
  | .ok spot =>
    if spot.removed = 0 ∧ files.entryAt spot = some .directory then
      [['.'], ['.', '.']] ++ (files.namesIn spot.place).map Text.ofBytes
    else []
  | .error _ => []

/-- The paths that begin with some text and go on by stretches of a pattern. -/
def pathsAlong (files : Files) : Text → List (List Marked) → List Text
  | before, [] => [before]
  | before, [stretch] => namesFor before stretch
  | before, stretch :: rest =>
    (namesFor before stretch).flatMap fun path => pathsAlong files (path ++ ['/']) rest
where
  /-- The paths for a stretch. -/
  namesFor (before : Text) (stretch : List Marked) : List Text :=
    let pattern := Pattern.ofMarked stretch
    if pattern.isWild then
      let hidden := stretch.head?.any (·.1 = '.')
      ((namesAt files before).filter fun name =>
        (name.head? ≠ some '.' || hidden) && pattern.fits name).map (before ++ ·)
    else [before ++ stretch.map (·.1)]

/-- The paths that fit a field, in order; the field itself if it is no pattern or nothing fits. -/
def expandPaths (files : Files) (field : List Marked) : List Text :=
  let itself := field.map (·.1)
  if (Pattern.ofMarked field).isWild then
    let found := (pathsAlong files [] (stretches field)).filter fun path =>
      (files.entryItself ⟨path.toBytes⟩).toOption.isSome
    if found.isEmpty then [itself] else found.mergeSort fun a b => !List.lex b a fun x y => x.toNat < y.toNat
  else [itself]

end DeferredOpen.Shell
