import DeferredOpen.Recorder
import DeferredOpen.Shell.Run

/-!
# The command interpreter

The interpreter takes a script as an argument, out of a file or from its input, and ends with the
status of the last command. `Shell.run` is the interpreter as a program: what becomes of the files,
and how it ends.
-/

namespace DeferredOpen.Shell

namespace Running

/-- Takes the options that the interpreter is started with; whether the script is an argument, and
the arguments that are left. -/
def startOptions : List Text → Running (Bool × List Text)
  | [] => pure (false, [])
  | ['-', '-'] :: rest | ['-'] :: rest => pure (false, rest)
  | [sign, 'o'] :: name :: rest => do
    let _ ← Builtin.takeOptions [[sign, 'o'], name]
    startOptions rest
  | (sign :: letter :: letters) :: rest => do
    if Builtin.isSign sign then
      let all := letter :: letters
      for option in all.filter fun c => c ≠ 'c' ∧ c ≠ 'l' do Builtin.switch (sign = '-') option
      let (given, left) ← startOptions rest
      pure (given || all.contains 'c', left)
    else pure (false, (sign :: letter :: letters) :: rest)
  | words => pure (false, words)

def runFile (inner : Inner) (path : Text) : Running Unit := do
  let s ← get
  match s.files.entry ⟨path.toBytes⟩ with
  | .error _ | .ok .socket => refuse
  | .ok (.file (.data bytes) _) => inner.script {} (Text.ofBytes bytes)
  | .ok (.file (.program .recorder) _) =>
    let ending ← inner.program .recorder (s.name :: s.arguments)
    setStatus ending.status
  | .ok (.file (.program _) _) => refuse
  | .ok _ => pure ()

def runArguments (inner : Inner) (arguments : List Text) : Running Unit := do
  let (given, left) ← startOptions arguments
  match given, left with
  | true, [] => refuse
  | true, script :: left =>
    modify fun s => { s with name := left.head?.getD s.name, arguments := left.drop 1 }
    if (← get).has 's' then
      inner.script {} script
      inner.script {} ((← takeAll 0).getD [])
    else inner.script {} script
  | false, left =>
    if left.isEmpty || (← get).has 's' then
      modify fun s => { s with arguments := left }
      inner.script {} ((← takeAll 0).getD [])
    else
      modify fun s => { s with name := left.head?.getD s.name, arguments := left.drop 1 }
      runFile inner (left.head?.getD [])

/-- The working directory by the names that led there: those that a variable gives, if they lead
there, or those in the tree. -/
def startDirectory (files : Files) (bindings : List (Text × Variable)) : Option Text :=
  match (bindings.lookup "PWD".toList).bind (·.value) with
  | some ('/' :: rest) =>
    if (files.resolve ⟨Text.toBytes ('/' :: rest)⟩).toOption = some files.working then
      some ('/' :: rest)
    else Builtin.physical files
  | _ => Builtin.physical files

/-- The state of an interpreter that another one starts. -/
def nested (s : State) (name : Text) : State :=
  { files := s.files
    bindings := s.exports
    name
    ports := s.ports
    texts := s.texts
    openings := s.openings
    directory := startDirectory s.files s.exports
    number := s.nextNumber
    parents := s.number :: s.parents
    nextNumber := s.nextNumber + 1 }

/-- Runs a program with an argument vector to its end. Scripts do not start the program that this
library is about. -/
def runVector (inner : Inner) (program : Program) (vector : List Text) : Running Ending := do
  match program with
  | .itself => pure (.exited 0)
  | .recorder =>
    modify fun s => { s with files := Recorder.run s.files ((vector.drop 1).map Text.toBytes) }
    pure (.exited 0)
  | .shell =>
    apart (nested · (vector.head?.getD [])) (toEnd inner (runArguments inner (vector.drop 1)))

end Running

/-- How many times a loop may be run through, and a command may hold another one. -/
def limit : Nat := 100000

mutual

def runWithin : Nat → Circumstances → Command → Running Unit
  | 0, _, _ => Running.jump .exhausted
  | n + 1, c, command =>
    Running.runCommand ⟨n, runWithin n, scriptWithin n, programWithin n⟩ c command

def scriptWithin : Nat → Circumstances → Text → Running Unit
  | 0, _, _ => Running.jump .exhausted
  | n + 1, c, t =>
    Running.runScript ⟨n, runWithin n, scriptWithin n, programWithin n⟩ (t.length + 1) c t

def programWithin : Nat → Program → List Text → Running Ending
  | 0, _, _ => Running.jump .exhausted
  | n + 1, program, vector =>
    Running.runVector ⟨n, runWithin n, scriptWithin n, programWithin n⟩ program vector

end

def begin (files : Files) (searchPath : List Path) : State :=
  let path : Text := [':'].intercalate (searchPath.map fun p => Text.ofBytes p.bytes)
  { files
    bindings := [("PATH".toList, { value := some path, exported := true })]
    name := []
    number := 0
    nextNumber := 100 }

/-- Runs the interpreter on some files, with a search path and an argument vector. Its end, if it
comes to one within a limit, and the files then. -/
def runUpTo (limit : Nat) (files : Files) (searchPath : List Path) (vector : List Bytes) :
    Option Ending × Files :=
  match programWithin limit .shell (vector.map Text.ofBytes) (begin files searchPath) with
  | (.ok ending, s) => (some ending, { s.files with working := files.working })
  | (.error _, s) => (none, { s.files with working := files.working })

def run (files : Files) (searchPath : List Path) (vector : List Bytes) : Option Ending × Files :=
  runUpTo limit files searchPath vector

end DeferredOpen.Shell
