import DeferredOpen.Files.Walk

/-!
# What the system runs

A file that may be run holds a program, or a text whose first line names the file of another
program. That one is run instead: it gets the words of the line and the path of the file before
the arguments of the command. The file named may be such a text, too, up to five times.
-/

namespace DeferredOpen

/-- A program, and the words that come before the arguments of the command if the program is run
for a script. -/
structure Image where
  program : Program
  script : List Bytes := []
  deriving DecidableEq, Repr

namespace Image

/-- How many scripts may name each other. -/
def maxScripts : Nat := 5

def isBlank (b : UInt8) : Bool := b = 0x20 || b = 0x09

/-- The program that the first line of a script names, and the one word it is given. -/
def interpreter? (text : Bytes) : Option (Path × Option Bytes) :=
  match text with
  | 0x23 :: 0x21 :: rest =>
    let line := rest.takeWhile (· ≠ 0x0A)
    let line := ((line.dropWhile isBlank).reverse.dropWhile isBlank).reverse
    let name := line.takeWhile fun b => !isBlank b && b ≠ 0
    let argument := (line.drop name.length).dropWhile isBlank
    if name = [] then none
    else some (⟨name⟩, if argument = [] then none else some argument)
  | _ => none

/-- What is run for a file, when so many scripts may still be passed. -/
def loadWithin (files : Files) : Nat → Path → Except SystemFault Image
  | scripts, path =>
    match files.entry path with
    | .error e => .error e
    | .ok (.file (.program program) true) =>
      if program = .recorder ∧ scripts = 0 then .error .tooManyLinks else .ok { program }
    | .ok (.file (.data text) true) =>
      match interpreter? text, scripts with
      | none, _ => .error .notProgram
      | some _, 0 => .error .tooManyLinks
      | some (name, argument), left + 1 =>
        match loadWithin files left name with
        | .error e => .error e
        | .ok image =>
          let outer := if image.script = [] then [name.bytes] else image.script
          .ok { image with script := outer ++ argument.toList ++ [path.bytes] }
    | .ok _ => .error .denied

/-- What is run for a file. What may not be run is refused. -/
def load (files : Files) (path : Path) : Except SystemFault Image :=
  loadWithin files maxScripts path

def arguments (image : Image) (name : Bytes) (given : List Bytes) : List Bytes :=
  if image.script = [] then name :: given else image.script ++ given

end Image

end DeferredOpen
