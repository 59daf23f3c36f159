import DeferredOpen.Files.Change
import DeferredOpen.Shell.Script

/-!
# State of the command interpreter

What the interpreter keeps while it runs a script, and how a run is broken off. A `Running` action
changes the state and gives a value, or breaks off with a jump.
-/

namespace DeferredOpen.Shell

inductive Jump where
  /-- The interpreter ends. -/
  | exit
  /-- A command was refused. The interpreter ends, unless the command is an ordinary one. -/
  | refused
  /-- A function or a script read by another one ends. -/
  | leave
  /-- Some loops end. -/
  | stop (loops : Nat)
  /-- Some loops but one end, and that one goes on. -/
  | again (loops : Nat)
  /-- A signal ends the interpreter. -/
  | killed (signal : Nat)
  /-- The script went on for too long to be followed. -/
  | exhausted
  deriving DecidableEq, Repr

inductive Ending where
  | exited (code : Nat)
  | killed (signal : Nat)
  deriving DecidableEq, Repr

/-- The exit code of a process. One that was killed has none. -/
def Ending.code? : Ending → Option Nat
  | .exited code => some (code % 256)
  | .killed _ => none

/-- What the interpreter is told about a process that ended. -/
def Ending.status : Ending → Nat
  | .exited code => code % 256
  | .killed signal => 128 + signal

inductive Port where
  /-- What is written is lost, and there is nothing to read. -/
  | nowhere
  /-- A text in memory, by its number: what is written is added, what is read is taken. -/
  | memory (number : Nat)
  /-- A file that is written, by the number of its opening. -/
  | file (opening : Nat)
  | closed
  deriving DecidableEq, Repr

structure Opening where
  place : Place
  /-- Where the next bytes go; always to the end if there is none. -/
  position : Option Nat
  deriving Repr

/-- Bytes with others in place from a position on. A gap before them is filled with zeros. -/
def overwrite (bytes : Bytes) (position : Nat) (others : Bytes) : Bytes :=
  bytes.take position ++ List.replicate (position - bytes.length) 0 ++ others ++
    bytes.drop (position + others.length)

structure Variable where
  value : Option Text
  exported : Bool := false
  fixed : Bool := false
  deriving Repr

/-- How far a script has gone through its own options. -/
structure Reached where
  /-- The number of the next word, from 1 on. -/
  word : Nat := 1
  /-- Where the next letter is in the word before, if that one was not gone through. -/
  letter : Option Nat := none
  deriving DecidableEq, Repr

structure State where
  files : Files
  bindings : List (Text × Variable) := []
  functions : List (Text × Command) := []
  /-- The name of the script. -/
  name : Text
  arguments : List Text := []
  reached : Reached := {}
  status : Nat := 0
  /-- What is done for signals, and at the end for 0. Nothing is done for an empty text. -/
  traps : List (Nat × Text) := []
  /-- The status before the trap that is being run. -/
  beforeTrap : Option Nat := none
  /-- The number of this process, and of those that it was started by. -/
  number : Nat := 100
  parents : List Nat := []
  /-- The number of the next process. -/
  nextNumber : Nat := 101
  /-- Signals that are still to be dealt with, each with the process that it is for. -/
  pending : List (Nat × Nat) := []
  /-- The options that are on, by their letters. -/
  options : List Char := []
  ports : List (Nat × Port) := [(0, .nowhere), (1, .nowhere), (2, .nowhere)]
  texts : List Text := []
  openings : List Opening := []
  documents : List Word := []
  /-- The working directory, by the names that led there. -/
  directory : Option Text := none
  /-- How many loops the present command is in. -/
  loops : Nat := 0
  /-- How the last command substitution of the present command ended. -/
  substituted : Option Nat := none
  /-- The variables to be put back when the present functions end. -/
  hidden : List (List (Text × Option Variable)) := []
  /-- Commands run in the background, by number, and how they ended. -/
  jobs : List (Nat × Nat) := []
  /-- Whether this is a copy of the interpreter that was started. -/
  isCopy : Bool := false

abbrev Running := ExceptT Jump (StateM State)

namespace State

def findVariable (s : State) (x : Text) : Option Variable := s.bindings.lookup x

def value? (s : State) (x : Text) : Option Text := (s.findVariable x).bind (·.value)

def setVariable (s : State) (x : Text) (v : Variable) : State :=
  { s with bindings := (x, v) :: s.bindings.filter fun e => e.1 ≠ x }

def dropVariable (s : State) (x : Text) : State :=
  { s with bindings := s.bindings.filter fun e => e.1 ≠ x }

def has (s : State) (option : Char) : Bool := s.options.contains option

def port (s : State) (stream : Nat) : Port := (s.ports.lookup stream).getD .closed

def setPort (s : State) (stream : Nat) (p : Port) : State :=
  { s with ports := (stream, p) :: s.ports.filter fun e => e.1 ≠ stream }

/-- A new text in memory, by its number. -/
def keep (s : State) (t : Text) : Nat × State :=
  (s.texts.length, { s with texts := s.texts ++ [t] })

/-- The state with a file opened for writing, and the number of the opening. -/
def openFile (s : State) (o : Opening) : Nat × State :=
  (s.openings.length, { s with openings := s.openings ++ [o] })

def writeTo (s : State) (number : Nat) (bytes : Bytes) : State :=
  match s.openings[number]? with
  | none => s
  | some o =>
    match s.files.get? o.place with
    | some (.file content runnable) =>
      let old := match content with
        | .data bytes => bytes
        | .program _ => []
      let position := o.position.getD old.length
      let moved := { o with position := o.position.map fun _ => position + bytes.length }
      { s with
        files := s.files.put o.place (.file (.data (overwrite old position bytes)) runnable)
        openings := s.openings.set number moved }
    | _ => s

/-- The variables that other programs get to see. -/
def exports (s : State) : List (Text × Variable) := s.bindings.filter fun e => e.2.exported

end State

namespace Running

def jump (j : Jump) : Running α := throw j

def setStatus (n : Nat) : Running Unit := modify fun s => { s with status := n }

def refuse : Running α := do
  setStatus 2
  jump .refused

/-- Gives a variable a value. A fixed one keeps its own. -/
def assign (x value : Text) : Running Unit := do
  let s ← get
  let old := (s.findVariable x).getD { value := none }
  if old.fixed then refuse
  else
    set (s.setVariable x { old with value := some value, exported := old.exported || s.has 'a' })
    if x = "OPTIND".toList then
      modify fun s => { s with reached := { word := max 1 ((Text.number? value).getD 1) } }

/-- Runs something and puts the state right afterwards, also when it is broken off. -/
def restoring (a : Running α) (restore : State → State) : Running α := fun s =>
  let (result, after) := a s
  (result, restore after)

/-- Runs something and gives the jump that broke it off, if one did. -/
def caught (a : Running Unit) : Running (Option Jump) := fun s =>
  match a s with
  | (.ok (), after) => (.ok none, after)
  | (.error j, after) => (.ok (some j), after)

/-- Writes to a stream, if it takes something. -/
def say (stream : Nat) (t : Text) : Running Bool := do
  let s ← get
  match s.port stream with
  | .closed => pure false
  | .nowhere => pure true
  | .memory n =>
    set { s with texts := s.texts.modify n (· ++ t) }
    pure true
  | .file n =>
    set (s.writeTo n t.toBytes)
    pure true

/-- Takes all that can still be read from a stream. -/
def takeAll (stream : Nat) : Running (Option Text) := do
  let s ← get
  match s.port stream with
  | .memory n =>
    set { s with texts := s.texts.set n [] }
    pure (some (s.texts.getD n []))
  | .closed => pure none
  | _ => pure (some [])

/-- Takes a line from a stream: its characters, and whether it is a whole one. -/
def takeLine (stream : Nat) : Running (Text × Bool) := do
  let s ← get
  match s.port stream with
  | .memory n =>
    let t := s.texts.getD n []
    let line := t.takeWhile (· ≠ '\n')
    set { s with texts := s.texts.set n (t.drop (line.length + 1)) }
    pure (line, line.length < t.length)
  | _ => pure ([], false)

end Running

end DeferredOpen.Shell
