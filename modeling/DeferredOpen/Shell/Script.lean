import DeferredOpen.Shell.Token

/-!
# Reading scripts

A script is read a line at a time: the commands of a line are known before any of them runs, and
a malformed line stops the script only when its turn comes. A reserved word is one only where a
command may begin.
-/

namespace DeferredOpen.Shell

def reservedWords : List String :=
  ["!", "case", "do", "done", "elif", "else", "esac", "fi", "for", "if", "in", "then", "until",
    "while", "\x7b", "\x7d"]

def closers : List String :=
  ["do", "done", "elif", "else", "esac", "fi", "then", "\x7d"]

/-- The names of the commands that may not be defined anew. -/
def specialNames : List String :=
  [".", ":", "break", "continue", "eval", "exec", "exit", "export", "local", "readonly", "return",
    "set", "shift", "times", "trap", "unset"]

namespace Token

def reserved? : Token → Option String
  | .word [.text cs false] =>
    let s := String.ofList cs
    if reservedWords.contains s then some s else none
  | _ => none

def isCloser : Token → Bool
  | .closing | .doubleSemicolon | .finish => true
  | t => t.reserved?.any closers.contains

end Token

/-- The text of a word without quotes and expansions. -/
def literal? : Word → Option Text
  | [.text cs false] => some cs
  | _ => none

def wordText (word : Word) : Text :=
  word.flatMap fun
    | .text cs _ => cs
    | _ => []

def hasQuotes (word : Word) : Bool :=
  word.any fun
    | .text _ quoted | .parameter _ _ quoted | .command _ quoted | .arithmetic _ quoted => quoted

inductive Extent where
  /-- A line. -/
  | line
  /-- At least one command, up to what closes them. -/
  | required
  /-- Any number of commands, up to what closes them. -/
  | any
  deriving DecidableEq

def after? : Option Command → Command → Command
  | none, second => second
  | some first, second => .sequence first second

def assignmentOf? : Word → Option (Text × Word)
  | .text cs false :: rest =>
    match Text.assignment? cs with
    | some (name, []) => some (name, rest)
    | some (name, value) => some (name, .text value false :: rest)
    | none => none
  | _ => none

namespace Reading

structure Context where
  commands : CommandReader
  fuel : Nat
  /-- The commands of a list. -/
  list : Extent → Reading (Option Command)
  /-- A single command. -/
  command : Reading Command

variable (c : Context)

def next : Reading Token := token c.commands c.fuel

/-- A look at the next token. -/
def look : Reading Token := peek c.commands c.fuel

/-- Passes over line ends; there are no more of them than characters. -/
def skipLines : Nat → Reading Unit
  | 0 => pure ()
  | n + 1 => do
    match ← look c with
    | .newline =>
      let _ ← next c
      skipLines n
    | _ => pure ()

def skipAllLines : Reading Unit := do skipLines c ((← rest).length + 1)

/-- Takes a reserved word that has to come. -/
def expect (word : String) : Reading Unit := do
  if (← next c).reserved? ≠ some word then fail

/-- Takes a reserved word if it comes. -/
def accept (word : String) : Reading Bool := do
  if (← look c).reserved? = some word then
    let _ ← next c
    pure true
  else pure false

def redirection (stream : Nat) (arrow : Arrow) : Reading Redirection := do
  match ← next c with
  | .word target =>
    match arrow with
    | .output => pure (.output stream false target)
    | .append => pure (.output stream true target)
    | .input => pure (.input stream target)
    | .both => pure (.both stream target)
    | .copy => pure (.copy stream target)
    | .document indented =>
      let s ← get
      let number := s.documents.length
      let d : Document := ⟨wordText target, hasQuotes target, indented⟩
      set { s with awaited := s.awaited ++ [(number, d)], documents := s.documents ++ [[]] }
      pure (.document stream number)
  | _ => fail

def redirections : Nat → Reading (List Redirection)
  | 0 => fail
  | n + 1 => do
    match ← look c with
    | .arrow stream arrow =>
      let _ ← next c
      let first ← redirection c stream arrow
      return first :: (← redirections n)
    | _ => pure []

def words : Nat → Reading (List Word)
  | 0 => fail
  | n + 1 => do
    match ← look c with
    | .word word =>
      let _ ← next c
      return word :: (← words n)
    | _ => pure []

/-- The parts of a simple command, or the function that it defines. -/
def simple : Nat → List (Text × Word) → List Word → List Redirection → Reading Command
  | 0, _, _, _ => fail
  | n + 1, assignments, ws, rs => do
    match ← look c with
    | .word word =>
      let _ ← next c
      match if ws.isEmpty then assignmentOf? word else none with
      | some assignment => simple n (assignments ++ [assignment]) ws rs
      | none => simple n assignments (ws ++ [word]) rs
    | .arrow stream arrow =>
      let _ ← next c
      let r ← redirection c stream arrow
      simple n assignments ws (rs ++ [r])
    | .opening =>
      match assignments, ws, rs with
      | [], [name], [] =>
        let _ ← next c
        match ← next c, literal? name with
        | .closing, some name =>
          if !Text.isName name || specialNames.contains (String.ofList name) then fail
          else
            skipAllLines c
            return .definition name (← c.command)
        | _, _ => fail
      | _, _, _ => pure (.simple assignments ws rs)
    | _ => pure (.simple assignments ws rs)

/-- The alternatives of a branch after its first condition. -/
def branches : Nat → Option Command → Reading Command
  | 0, _ => fail
  | n + 1, condition => do
    expect c "then"
    let body ← c.list .required
    if ← accept c "elif" then
      let other ← c.list .required
      return .branch condition body (some (← branches n other))
    else if ← accept c "else" then
      let other ← c.list .required
      expect c "fi"
      pure (.branch condition body other)
    else
      expect c "fi"
      pure (.branch condition body none)

def patterns : Nat → Reading (List Word)
  | 0 => fail
  | n + 1 => do
    match ← next c with
    | .word pattern =>
      match ← next c with
      | .bar => return pattern :: (← patterns n)
      | .closing => pure [pattern]
      | _ => fail
    | _ => fail

def clauses : Nat → Reading (List (List Word × Option Command))
  | 0 => fail
  | n + 1 => do
    skipAllLines c
    if ← accept c "esac" then return []
    match ← look c with
    | .opening =>
      let _ ← next c
    | _ => pure ()
    let patterns ← patterns c n
    let body ← c.list .any
    skipAllLines c
    match ← next c with
    | .doubleSemicolon => return (patterns, body) :: (← clauses n)
    | t => if t.reserved? = some "esac" then pure [(patterns, body)] else fail

def loopWords : Reading (List Word) := do
  skipAllLines c
  if ← accept c "in" then
    let ws ← words c c.fuel
    match ← next c with
    | .newline | .semicolon => pure ws
    | _ => fail
  else
    match ← look c with
    | .semicolon =>
      let _ ← next c
    | _ => pure ()
    pure [[.parameter ['@'] .value true]]

def loopBody : Reading (Option Command) := do
  expect c "do"
  let body ← c.list .required
  expect c "done"
  pure body

def compound (word : String) : Reading Command := do
  match word with
  | "if" => branches c c.fuel (← c.list .required)
  | "while" => return .loop false (← c.list .required) (← loopBody c)
  | "until" => return .loop true (← c.list .required) (← loopBody c)
  | "for" =>
    match ← next c with
    | .word name =>
      match literal? name with
      | some name =>
        if Text.isName name then
          let ws ← loopWords c
          skipAllLines c
          return .each name ws (← loopBody c)
        else fail
      | none => fail
    | _ => fail
  | "case" =>
    match ← next c with
    | .word word =>
      skipAllLines c
      expect c "in"
      return .choice word (← clauses c c.fuel)
    | _ => fail
  | "\x7b" =>
    let body ← c.list .required
    expect c "\x7d"
    match body with
    | some body => pure body
    | none => fail
  | _ => fail

def withRedirections (command : Command) : Reading Command := do
  match ← redirections c c.fuel with
  | [] => pure command
  | rs => pure (.redirected command rs)

def oneCommand : Reading Command := do
  let t ← look c
  match t.reserved? with
  | some word =>
    let _ ← next c
    withRedirections c (← compound c word)
  | none =>
    match t with
    | .opening =>
      let _ ← next c
      let body ← c.list .required
      match ← next c with
      | .closing => withRedirections c (.subshell body)
      | _ => fail
    | .word _ | .arrow _ _ => simple c c.fuel [] [] []
    | _ => fail

def pipes : Nat → Reading (List Command)
  | 0 => fail
  | n + 1 => do
    match ← look c with
    | .bar =>
      let _ ← next c
      skipAllLines c
      let command ← c.command
      return command :: (← pipes n)
    | _ => pure []

def pipeline : Reading Command := do
  let negated ← accept c "!"
  let first ← c.command
  let rest ← pipes c c.fuel
  let whole := if rest.isEmpty then first else .pipeline (first :: rest)
  pure (if negated then .negation whole else whole)

/-- What follows a pipeline on condition of its end. -/
def conditional : Nat → Command → Reading Command
  | 0, _ => fail
  | n + 1, first => do
    match ← look c with
    | .and =>
      let _ ← next c
      skipAllLines c
      conditional n (.conjunction first (← pipeline c))
    | .or =>
      let _ ← next c
      skipAllLines c
      conditional n (.disjunction first (← pipeline c))
    | _ => pure first

/-- The commands of a list, after some that have been read. -/
def commands (extent : Extent) : Nat → Option Command → Reading (Option Command)
  | 0, _ => fail
  | n + 1, before => do
    if extent ≠ .line then skipAllLines c
    let t ← look c
    match extent, t with
    | .line, .newline =>
      let _ ← next c
      return before
    | .line, .finish => return before
    | _, _ => pure ()
    if t.isCloser && (extent = .any || (extent = .required && before.isSome)) then return before
    let command ← conditional c c.fuel (← pipeline c)
    match ← look c with
    | .ampersand =>
      let _ ← next c
      commands extent n (some (after? before (.background command)))
    | .semicolon =>
      let _ ← next c
      commands extent n (some (after? before command))
    | .newline | .finish => commands extent n (some (after? before command))
    | _ => if extent = .line then fail else pure (some (after? before command))

end Reading

mutual

def readList : Nat → Extent → Reading (Option Command)
  | 0, _ => Reading.fail
  | fuel + 1, extent =>
    Reading.commands
      { commands := { inParentheses := readParentheses fuel, ofText := readText fuel }
        fuel
        list := readList fuel
        command := readCommand fuel } extent fuel none

def readCommand : Nat → Reading Command
  | 0 => Reading.fail
  | fuel + 1 =>
    Reading.oneCommand
      { commands := { inParentheses := readParentheses fuel, ofText := readText fuel }
        fuel
        list := readList fuel
        command := readCommand fuel }

def readParentheses : Nat → Reading (Option Command)
  | 0 => Reading.fail
  | fuel + 1 => do
    let body ← readList fuel .any
    match ← token { inParentheses := Reading.fail, ofText := fun _ => Reading.fail } fuel with
    | .closing => pure body
    | _ => Reading.fail

def readText : Nat → Text → Reading (Option Command)
  | 0, _ => Reading.fail
  | fuel + 1, text => do
    let outer ← get
    set { outer with rest := text, ahead := none, awaited := [] }
    let body ← readList fuel .any
    modify fun s => { outer with documents := s.documents }
    pure body

end

/-- How far reading a text may go. -/
def readingFuel (text : Text) : Nat := 8 * text.length + 64

inductive Line where
  /-- Nothing: the script is at its end. -/
  | finish
  /-- Commands, if any; the rest of the script, and all documents read so far. -/
  | commands (body : Option Command) (rest : Text) (documents : List Word)
  | malformed

def nextLine (text : Text) (documents : List Word) : Line :=
  if skipBlanks text = [] then .finish
  else match (readList (readingFuel text) .line).run { rest := text, documents } with
  | some (body, source) => .commands body source.rest source.documents
  | none => .malformed

end DeferredOpen.Shell
