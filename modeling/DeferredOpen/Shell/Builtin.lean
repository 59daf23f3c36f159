import DeferredOpen.Shell.Condition
import DeferredOpen.Shell.Expansion
import DeferredOpen.Shell.Format
import DeferredOpen.Shell.Options

/-!
# Commands of the interpreter itself

Commands that need no program. Each is given its arguments and gives its status; those that run
other commands are not among them.
-/

namespace DeferredOpen.Shell.Builtin

open Running

/-- The names of signals, from number 1 on. -/
def signalNames : List String := [
  "HUP", "INT", "QUIT", "ILL", "TRAP", "ABRT", "BUS", "FPE", "KILL", "USR1", "SEGV", "USR2",
  "PIPE", "ALRM", "TERM", "STKFLT", "CHLD", "CONT", "STOP", "TSTP", "TTIN", "TTOU", "URG", "XCPU",
  "XFSZ", "VTALRM", "PROF", "WINCH", "IO", "PWR", "SYS"]

/-- How many signals there are, with the one numbered 0. -/
def signalCount : Nat := 65

/-- The signal that a word means; 0 stands for the end. -/
def signal? (word : Text) : Option Nat :=
  match Text.number? word with
  | some n => if n < signalCount then some n else none
  | none =>
    let s := String.ofList (word.map Char.toUpper)
    if s = "EXIT" then some 0
    else (signalNames.findIdx? (· = s)).map (· + 1)

/-- Signals that do nothing unless a script says so. -/
def isHarmless (signal : Nat) : Bool := [0, 17, 18, 23, 28].contains signal

/-- Signals of which a script never hears. -/
def isFinal (signal : Nat) : Bool := signal = 9 || signal = 19

def isDeadly (s : State) (signal : Nat) : Bool :=
  isFinal signal || ((s.traps.lookup signal).isNone && !isHarmless signal)

def number (word : Text) : Running Nat :=
  match Arithmetic.decimal? word with
  | some n => if 0 ≤ n ∧ n < Int.pow 2 31 then pure n.toNat else refuse
  | none => refuse

def write (t : Text) : Running Nat := do
  if t.isEmpty then pure 0
  else if ← say 1 t then pure 0 else pure 1

def optionNames : List (String × Char) := [
  ("errexit", 'e'), ("noglob", 'f'), ("ignoreeof", 'I'), ("interactive", 'i'), ("monitor", 'm'),
  ("noexec", 'n'), ("stdin", 's'), ("xtrace", 'x'), ("verbose", 'v'), ("vi", 'V'),
  ("emacs", 'E'), ("noclobber", 'C'), ("allexport", 'a'), ("notify", 'b'), ("nounset", 'u')]

def switch (on : Bool) (option : Char) : Running Unit :=
  if optionNames.any fun e => e.2 = option then
    modify fun s =>
      let others := s.options.filter (· ≠ option)
      { s with options := if on then others ++ [option] else others }
  else refuse

def isSign (c : Char) : Bool := c = '-' || c = '+'

/-- Takes the options at the beginning of some words; the words that are left, and whether they
are meant as arguments even if there are none. -/
def takeOptions : List Text → Running (List Text × Bool)
  | [] => pure ([], false)
  | ['-', '-'] :: rest => pure (rest, true)
  | ['-'] :: rest => pure (rest, !rest.isEmpty)
  | [sign, 'o'] :: name :: rest => do
    if isSign sign then
      match optionNames.lookup (String.ofList name) with
      | some option =>
        switch (sign = '-') option
        takeOptions rest
      | none => refuse
    else pure ([sign, 'o'] :: name :: rest, true)
  | (sign :: letter :: letters) :: rest => do
    if isSign sign then
      if letter = 'o' ∧ letters = [] then return ([], false)
      for option in letter :: letters do switch (sign = '-') option
      takeOptions rest
    else pure ((sign :: letter :: letters) :: rest, true)
  | words => pure (words, true)

def setArguments (words : List Text) : Running Nat := do
  let (left, meant) ← takeOptions words
  if meant || !left.isEmpty then modify fun s => { s with arguments := left, reached := {} }
  pure 0

def exit (words : List Text) : Running Nat := do
  let s ← get
  match words with
  | [] => setStatus (s.beforeTrap.getD s.status)
  | word :: _ => setStatus (← number word)
  jump .exit

/-- The end of a function. -/
def leave (words : List Text) : Running Nat := do
  match words with
  | [] => pure ()
  | word :: _ => setStatus (← number word)
  jump .leave

/-- The end of some loops, or of a run through one. -/
def endLoops (jumpOf : Nat → Jump) (words : List Text) : Running Nat := do
  let n ← match words with
    | [] => pure 1
    | word :: _ => number word
  if n = 0 then refuse
  let loops := (← get).loops
  if loops = 0 then pure 0
  else
    setStatus 0
    jump (jumpOf (min n loops))

def shift (words : List Text) : Running Nat := do
  let n ← match words with
    | [] => pure 1
    | word :: _ => number word
  let s ← get
  if s.arguments.length < n then refuse
  set { s with arguments := s.arguments.drop n, reached := {} }
  pure 0

def nameAndValue (word : Text) : Running (Text × Option Text) :=
  match Text.assignment? word with
  | some (name, value) => pure (name, some value)
  | none => if Text.isName word then pure (word, none) else refuse

/-- Marks variables. -/
def mark (change : Variable → Variable) (words : List Text) : Running Nat := do
  for word in words.filter (· ≠ ['-', 'p']) do
    let (name, value) ← nameAndValue word
    if let some value := value then assign name value
    modify fun s => s.setVariable name (change ((s.findVariable name).getD { value := none }))
  pure 0

def unset (words : List Text) : Running Nat := do
  let (functions, names) := match words with
    | ['-', 'f'] :: rest => (true, rest)
    | ['-', 'v'] :: rest => (false, rest)
    | _ => (false, words)
  for name in names do
    if functions then
      modify fun s => { s with functions := s.functions.filter fun e => e.1 ≠ name }
    else if !Text.isName name then refuse
    else
      let s ← get
      if (s.findVariable name).any (·.fixed) then refuse
      set (s.dropVariable name)
  pure 0

def makeLocal (words : List Text) : Running Nat := do
  if (← get).hidden.isEmpty then refuse
  for word in words do
    let (name, value) ← nameAndValue word
    let s ← get
    match s.hidden with
    | [] => refuse
    | scope :: outer =>
      set { s with hidden := ((name, s.findVariable name) :: scope) :: outer }
      if let some value := value then assign name value
  pure 0

/-- The names along a path that is taken as it is written. -/
def plainNames (start : List Text) (path : Text) : List Text :=
  (path.splitOnP (· = '/')).foldl
    (fun names name =>
      if name = [] ∨ name = ['.'] then names
      else if name = ['.', '.'] then names.dropLast
      else names ++ [name]) start

def absolute (names : List Text) : Text := '/' :: ['/'].intercalate names

/-- The path of the working directory, if it has one. -/
def physical (files : Files) : Option Text :=
  if files.working.removed = 0 then some (absolute (files.working.place.map Text.ofBytes)) else none

/-- Goes to another directory. The way up is the way that led down, not the one in the tree. -/
def changeDirectory (words : List Text) : Running Nat := do
  let (inTree, words) := match words with
    | ['-', 'P'] :: rest => (true, rest)
    | ['-', 'L'] :: rest | ['-', '-'] :: rest => (false, rest)
    | _ => (false, words)
  let s ← get
  let target := match words with
    | [] => (s.value? "HOME".toList).getD []
    | ['-'] :: _ => (s.value? "OLDPWD".toList).getD []
    | word :: _ => word
  let named := match target, s.directory with
    | '/' :: _, _ => some (absolute (plainNames [] target))
    | _, some here => some (absolute (plainNames (plainNames [] here) target))
    | _, none => none
  let path := if inTree then target else named.getD target
  match s.files.enter ⟨path.toBytes⟩ with
  | .error _ => refuse
  | .ok files =>
    let directory := if inTree then physical files else named.orElse fun _ => physical files
    set { s with files, directory }
    assign "OLDPWD".toList (s.directory.getD [])
    assign "PWD".toList (directory.getD [])
    if words = [['-']] then write (directory.getD [] ++ ['\n']) else pure 0

def test (words : List Text) : Running Nat := do
  match Condition.holds (← get).files words with
  | some true => pure 0
  | some false => pure 1
  | none => refuse

def bracketed (words : List Text) : Running Nat := do
  if words.getLast? = some [']'] then test words.dropLast else refuse

/-- Sets what is done for signals. -/
def trap (words : List Text) : Running Nat := do
  let (action, names) := match words with
    | action :: name :: rest =>
      if (Text.number? action).isSome && (signal? action).isSome then
        (none, action :: name :: rest)
      else (if action = ['-'] then none else some action, name :: rest)
    | _ => (none, words)
  for name in names do
    match signal? name with
    | none => return 1
    | some signal =>
      modify fun s =>
        let others := s.traps.filter fun e => e.1 ≠ signal
        { s with traps := match action with
            | some action => (signal, action) :: others
            | none => others }
  pure 0

/-- Lets a signal come to a process. A copy has the number of what it is a copy of, but the signal
is not for the copy. -/
def receive (signal process : Nat) : Running Unit := do
  let s ← get
  let later := { s with pending := s.pending ++ [(process, signal)] }
  if s.isCopy || process ≠ s.number then set later
  else if isDeadly s signal then jump (.killed signal)
  else set later

/-- Sends a signal to processes. Only this one and those that it was started by are there. -/
def sendTo (signal : Nat) (words : List Text) : Running Nat := do
  if words.isEmpty then refuse
  let mut status := 0
  for word in words do
    match word with
    | '-' :: rest =>
      let _ ← number rest
      status := 1
    | _ =>
      let process ← number word
      let s ← get
      if process = s.number || s.parents.contains process then receive signal process
      else status := 1
  pure status

def kill (words : List Text) : Running Nat := do
  match words with
  | [] => refuse
  | ('-' :: name) :: rest =>
    match if name.isEmpty then none else signal? name with
    | some signal => sendTo signal rest
    | none =>
      match name, rest with
      | ['l'], _ => pure 0
      | ['s'], word :: rest =>
        match signal? word with
        | some signal => sendTo signal (if rest.head? = some ['-', '-'] then rest.drop 1 else rest)
        | none => refuse
      | 's' :: word, rest =>
        match signal? word with
        | some signal => sendTo signal rest
        | none => refuse
      | ['-'], rest => sendTo 15 rest
      | _, _ => refuse
  | words => sendTo 15 words

/-- Waits for commands in the background; they have always ended. -/
def wait (words : List Text) : Running Nat := do
  let mut status := 0
  for word in words do
    let n ← number word
    status := ((← get).jobs.lookup n).getD 127
  pure status

/-- A line whose backslashes are resolved; characters after a backslash separate nothing. -/
def resolved : Text → List Marked
  | [] => []
  | ['\\'] => []
  | '\\' :: c :: rest => (c, true) :: resolved rest
  | c :: rest => (c, false) :: resolved rest

/-- Whether a line ends with a backslash that takes its end away. -/
def goesOn : Text → Bool
  | [] => false
  | ['\\'] => true
  | '\\' :: _ :: rest => goesOn rest
  | _ :: rest => goesOn rest

def readLines (raw : Bool) : Nat → Running (Text × Bool)
  | 0 => pure ([], false)
  | n + 1 => do
    let (line, isWhole) ← takeLine 0
    if !raw && goesOn line && isWhole then
      let (rest, isWhole) ← readLines raw n
      pure (line.dropLast ++ rest, isWhole)
    else pure (line, isWhole)

def values (separators : Text) : Nat → List Marked → List Text
  | 0, _ => []
  | names + 1, line =>
    let isBlank (m : Marked) : Bool :=
      !m.2 && separators.contains m.1 && (m.1 = ' ' || m.1 = '\t' || m.1 = '\n')
    let line := line.dropWhile isBlank
    let isSeparator (m : Marked) : Bool := !m.2 && separators.contains m.1
    let field := line.takeWhile fun m => !isSeparator m
    let after := (line.drop field.length).dropWhile isBlank
    let after := match after with
      | m :: rest => if isSeparator m && !isBlank m then rest else after
      | [] => after
    if names = 0 then
      let text := if (after.dropWhile isBlank).isEmpty then field
        else (line.reverse.dropWhile isBlank).reverse
      [text.map (·.1)]
    else field.map (·.1) :: values separators names after

def read (words : List Text) : Running Nat := do
  let raw := words.head? = some ['-', 'r']
  let names := if raw then words.drop 1 else words
  if names.isEmpty then refuse
  if !names.all Text.isName then refuse
  let s ← get
  let available := match s.port 0 with
    | .memory n => (s.texts.getD n []).length
    | _ => 0
  let (line, isWhole) ← readLines raw (available + 1)
  let marked := if raw then line.map (·, false) else resolved line
  let found := values s.separators names.length marked
  for (name, value) in names.zip (found ++ List.replicate names.length []) do
    assign name value
  pure (if isWhole then 0 else 1)

/-- The ordinary commands of the interpreter that need nothing but their arguments. -/
def ordinary (name : String) (words : List Text) : Option (Running Nat) :=
  match name with
  | "true" | "ulimit" | "hash" | "jobs" | "alias" | "unalias" => some (pure 0)
  | "umask" => some (if words.isEmpty then write "0022\n".toList else pure 0)
  | "false" => some (pure 1)
  | "echo" => some (write (Format.line words))
  | "printf" => some do
    match if words.head? = some ['-', '-'] then words.drop 1 else words with
    | [] => refuse
    | format :: rest =>
      let o := Format.formatted format rest
      let status ← write o.text
      if o.malformed then refuse
      pure (if o.good then status else 1)
  | "test" => some (test words)
  | "[" => some (bracketed words)
  | "cd" | "chdir" => some (changeDirectory words)
  | "pwd" => some do write ((← get).directory.getD [] ++ ['\n'])
  | "kill" => some (kill words)
  | "wait" => some (wait words)
  | "read" => some (read words)
  | "getopts" => some (Options.command words)
  | _ => none

/-- The special commands of the interpreter that need nothing but their arguments. -/
def special (name : String) (words : List Text) : Option (Running Nat) :=
  match name with
  | ":" | "times" => some (pure 0)
  | "exit" => some (exit words)
  | "return" => some (leave words)
  | "break" => some (endLoops .stop words)
  | "continue" => some (endLoops .again words)
  | "shift" => some (shift words)
  | "set" => some (setArguments words)
  | "export" => some (mark (fun v => { v with exported := true }) words)
  | "readonly" => some (mark (fun v => { v with fixed := true }) words)
  | "unset" => some (unset words)
  | "local" => some (makeLocal words)
  | "trap" => some (trap words)
  | _ => none

end DeferredOpen.Shell.Builtin
