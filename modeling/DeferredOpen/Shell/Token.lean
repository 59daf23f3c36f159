import DeferredOpen.Shell.Grammar

/-!
# Tokens of a script

A token is an operator, an arrow that redirects a stream, or a word. Inside a word, quotes and
expansions are recognised; what stands in the parentheses of a command substitution is read by the
reader of commands, which is handed in. A script that breaks off in the middle has no tokens.
-/

namespace DeferredOpen.Shell

inductive Arrow where
  | output
  | append
  | input
  | both
  | copy
  /-- The lines up to a delimiter; `indented` when tabs before them do not count. -/
  | document (indented : Bool)
  deriving DecidableEq, Repr

inductive Token where
  | newline
  | semicolon
  | doubleSemicolon
  | ampersand
  | and
  | or
  | bar
  | opening
  | closing
  | arrow (stream : Nat) (arrow : Arrow)
  | word (word : Word)
  | finish

/-- A document that begins at the next line. -/
structure Document where
  delimiter : Text
  literal : Bool
  indented : Bool

structure Source where
  rest : Text
  /-- A token that has been looked at. -/
  ahead : Option Token := none
  /-- The documents that begin at the next line, each with its number. -/
  awaited : List (Nat × Document) := []
  /-- The documents by number, empty before they are read. -/
  documents : List Word := []

/-- What reads a script, and gives nothing when the script is malformed. -/
abbrev Reading := StateT Source Option

namespace Reading

def fail : Reading α := fun _ => none

def rest : Reading Text := return (← get).rest

def goTo (rest : Text) : Reading Unit := modify fun s => { s with rest }

def takeWhile (p : Char → Bool) : Reading Text := do
  let cs := (← rest).takeWhile p
  goTo ((← rest).drop cs.length)
  pure cs

end Reading

/-- Where the pieces of a word end. -/
inductive Close where
  /-- Before a character that cannot stand in a word. -/
  | word
  | quote
  | brace
  /-- After two closing parentheses, when `depth` others have been closed. -/
  | arithmetic (depth : Nat)
  /-- At the end of the text. -/
  | document
  deriving DecidableEq, Repr

namespace Close

def mayBreakOff (close : Close) : Bool := close = .word || close = .document

def isArithmetic : Close → Bool
  | .arithmetic _ => true
  | _ => false

/-- Whether a character ends the pieces, seeing what follows it. -/
def isClosedBy (close : Close) (c : Char) (rest : Text) : Bool :=
  match close with
  | .quote => c = '"'
  | .brace => c = '}'
  | .arithmetic 0 => c = ')' && rest.head? = some ')'
  | _ => false

/-- What follows the end of the pieces, when its first character has been read. -/
def after (close : Close) (rest : Text) : Text := if close.isArithmetic then rest.drop 1 else rest

def beyond : Close → Char → Close
  | .arithmetic depth, '(' => .arithmetic (depth + 1)
  | .arithmetic (depth + 1), ')' => .arithmetic depth
  | close, _ => close

/-- Whether a backslash in quotes changes the meaning of a character. -/
def isEscaped (close : Close) (c : Char) : Bool :=
  c = '$' || c = '`' || c = '\\' || (c = '"' && close ≠ .document) || (c = '}' && close = .brace)

end Close

def isMeta (c : Char) : Bool := "\n \t;&()|<>".toList.contains c

/-- Characters that are parameters on their own. -/
def isSpecial (c : Char) : Bool := "@*#?$!-".toList.contains c

def prepend (c : Char) (quoted : Bool) : Word → Word
  | .text cs q :: rest => if q = quoted then .text (c :: cs) q :: rest
    else .text [c] quoted :: .text cs q :: rest
  | rest => .text [c] quoted :: rest

/-- What stands between backquotes, and what follows. Only the characters that would be taken for
something else lose their backslash. -/
def backquoted (quoted : Bool) : Text → Option (Text × Text)
  | [] => none
  | '`' :: rest => some ([], rest)
  | ['\\'] => none
  | '\\' :: c :: rest => do
    let (body, after) ← backquoted quoted rest
    if c = '`' ∨ c = '\\' ∨ c = '$' ∨ (quoted ∧ c = '"') then some (c :: body, after)
    else some ('\\' :: c :: body, after)
  | c :: rest => do
    let (body, after) ← backquoted quoted rest
    some (c :: body, after)

def Use.mark : Text → Option (Use × Text)
  | '}' :: rest | ':' :: '}' :: rest => some (.value, '}' :: rest)
  | ':' :: '-' :: rest => some (.substitute .instead true [], rest)
  | ':' :: '=' :: rest => some (.substitute .assigned true [], rest)
  | ':' :: '+' :: rest => some (.substitute .ifSet true [], rest)
  | ':' :: '?' :: rest => some (.substitute .refused true [], rest)
  | '-' :: rest => some (.substitute .instead false [], rest)
  | '=' :: rest => some (.substitute .assigned false [], rest)
  | '+' :: rest => some (.substitute .ifSet false [], rest)
  | '?' :: rest => some (.substitute .refused false [], rest)
  | '%' :: '%' :: rest => some (.trim true true [], rest)
  | '%' :: rest => some (.trim true false [], rest)
  | '#' :: '#' :: rest => some (.trim false true [], rest)
  | '#' :: rest => some (.trim false false [], rest)
  | _ => none

def Use.isTrim : Use → Bool
  | .trim _ _ _ => true
  | _ => false

def Use.with (word : Word) : Use → Use
  | .substitute how orEmpty _ => .substitute how orEmpty word
  | .trim atEnd longest _ => .trim atEnd longest word
  | use => use

/-- The name of a parameter in braces, whether its length is asked for, and what follows. -/
def bracedName : Text → Option (Text × Bool × Text)
  | '#' :: c :: rest =>
    if Text.continuesName c then
      let name := if c.isDigit then (c :: rest).takeWhile Char.isDigit
        else (c :: rest).takeWhile Text.continuesName
      some (name, true, (c :: rest).drop name.length)
    else if c ≠ '}' ∧ isSpecial c ∧ rest.head? = some '}' then some ([c], true, rest)
    else some (['#'], false, c :: rest)
  | c :: rest =>
    if Text.beginsName c then
      let name := (c :: rest).takeWhile Text.continuesName
      some (name, false, (c :: rest).drop name.length)
    else if c.isDigit then
      let name := (c :: rest).takeWhile Char.isDigit
      some (name, false, (c :: rest).drop name.length)
    else if isSpecial c then some ([c], false, rest)
    else none
  | [] => none

/-- Reads commands inside a word up to the token that closes them. -/
structure CommandReader where
  /-- The commands before a closing parenthesis. -/
  inParentheses : Reading (Option Command)
  /-- The commands of a whole text. -/
  ofText : Text → Reading (Option Command)

/-- The parameter in the braces before this text. -/
def braced (inner : Close → Bool → Reading Word) (quoted : Bool) (text : Text) :
    Reading Piece := do
  match bracedName text with
  | none =>
    Reading.goTo text
    let _ ← inner .brace quoted
    pure (.parameter [] .bad quoted)
  | some (name, true, after) =>
    Reading.goTo after
    let word ← inner .brace quoted
    pure (.parameter name (if word.isEmpty then .length else .bad) quoted)
  | some (name, false, after) =>
    match Use.mark after with
    | none =>
      Reading.goTo after
      let _ ← inner .brace quoted
      pure (.parameter name .bad quoted)
    | some (use, after) =>
      Reading.goTo after
      let word ← inner .brace (quoted && !use.isTrim)
      pure (.parameter name (use.with word) quoted)

/-- The expansion that a dollar sign begins before this text, if it begins one. -/
def expansion (commands : CommandReader) (inner : Close → Bool → Reading Word) (quoted : Bool) :
    Text → Reading (Option Piece)
  | '(' :: '(' :: after => do
    Reading.goTo after
    pure (some (.arithmetic (← inner (.arithmetic 0) true) quoted))
  | '(' :: after => do
    Reading.goTo after
    pure (some (.command (← commands.inParentheses) quoted))
  | '{' :: after => some <$> braced inner quoted after
  | c :: after => do
    if Text.beginsName c then
      let name ← Reading.takeWhile Text.continuesName
      pure (some (.parameter name .value quoted))
    else if c.isDigit || isSpecial c then
      Reading.goTo after
      pure (some (.parameter [c] .value quoted))
    else pure none
  | [] => pure none

def pieces (commands : CommandReader) : Nat → Close → Bool → Reading Word
  | 0, _, _ => Reading.fail
  | fuel + 1, close, quoted => do
    let inner := pieces commands fuel
    let plain (c : Char) (quoted' : Bool) : Reading Word :=
      return prepend c quoted' (← inner close quoted)
    match ← Reading.rest with
    | [] => if close.mayBreakOff then pure [] else Reading.fail
    | c :: rest =>
      if close = .word && isMeta c then return []
      Reading.goTo rest
      if close.isClosedBy c rest then
        Reading.goTo (close.after rest)
        return []
      match c with
      | '\\' =>
        match rest with
        | [] => plain c true
        | '\n' :: after =>
          Reading.goTo after
          inner close quoted
        | d :: after =>
          if quoted && !close.isEscaped d then plain c true
          else
            Reading.goTo after
            plain d true
      | '\'' =>
        if quoted then plain c true
        else
          let body := rest.takeWhile (· ≠ '\'')
          match rest.drop body.length with
          | [] => Reading.fail
          | _ :: after =>
            Reading.goTo after
            return .text body true :: (← inner close quoted)
      | '"' =>
        if close = .document || close.isArithmetic then plain c quoted
        else
          let body ← inner .quote true
          return (if body.isEmpty then [.text [] true] else body) ++ (← inner close quoted)
      | '`' =>
        match backquoted quoted rest with
        | none => Reading.fail
        | some (body, after) =>
          Reading.goTo after
          let command ← commands.ofText body
          return .command command quoted :: (← inner close quoted)
      | '$' =>
        match ← expansion commands inner quoted rest with
        | some piece => return piece :: (← inner close quoted)
        | none => plain c quoted
      | _ => return prepend c quoted (← inner (close.beyond c) quoted)

def skipBlanks : Text → Text
  | ' ' :: rest | '\t' :: rest | '\\' :: '\n' :: rest => skipBlanks rest
  | '#' :: rest => rest.dropWhile (· ≠ '\n')
  | rest => rest

def Arrow.read? : Text → Option (Bool × Arrow × Text)
  | '>' :: '>' :: rest => some (true, .append, rest)
  | '>' :: '|' :: rest => some (true, .output, rest)
  | '>' :: '&' :: rest => some (true, .copy, rest)
  | '>' :: rest => some (true, .output, rest)
  | '<' :: '<' :: '-' :: rest => some (false, .document true, rest)
  | '<' :: '<' :: rest => some (false, .document false, rest)
  | '<' :: '&' :: rest => some (false, .copy, rest)
  | '<' :: '>' :: rest => some (false, .both, rest)
  | '<' :: rest => some (false, .input, rest)
  | _ => none

def Document.take (d : Document) (lines : List Text) : List Text × List Text :=
  let shown (line : Text) : Text := if d.indented then line.dropWhile (· = '\t') else line
  let body := lines.takeWhile fun line => shown line ≠ d.delimiter
  (body.map shown, lines.drop (body.length + 1))

def linesOf : Text → List Text
  | [] => []
  | '\n' :: rest => [] :: linesOf rest
  | c :: rest =>
    match linesOf rest, rest with
    | line :: lines, _ :: _ => (c :: line) :: lines
    | _, _ => [[c]]

def joinLines (lines : List Text) : Text := lines.flatMap (· ++ ['\n'])

def readDocuments (commands : CommandReader) (fuel : Nat) : Reading Unit := do
  let s ← get
  set { s with awaited := [] }
  for (number, d) in s.awaited do
    let (body, after) := d.take (linesOf (← Reading.rest))
    let word ←
      if d.literal then pure [.text (joinLines body) true]
      else do
        Reading.goTo (joinLines body)
        pieces commands fuel .document true
    modify fun s => { s with documents := s.documents.set number word }
    Reading.goTo (joinLines after)

def token (commands : CommandReader) (fuel : Nat) : Reading Token := do
  if let some t := (← get).ahead then
    modify fun s => { s with ahead := none }
    return t
  let text := skipBlanks (← Reading.rest)
  Reading.goTo text
  let give (t : Token) (rest : Text) : Reading Token := do
    Reading.goTo rest
    pure t
  match text with
  | [] =>
    readDocuments commands fuel
    pure .finish
  | '\n' :: rest =>
    Reading.goTo rest
    readDocuments commands fuel
    pure .newline
  | ';' :: ';' :: rest => give .doubleSemicolon rest
  | ';' :: rest => give .semicolon rest
  | '&' :: '&' :: rest => give .and rest
  | '&' :: rest => give .ampersand rest
  | '|' :: '|' :: rest => give .or rest
  | '|' :: rest => give .bar rest
  | '(' :: rest => give .opening rest
  | ')' :: rest => give .closing rest
  | c :: rest =>
    match Arrow.read? text with
    | some (out, arrow, after) => give (.arrow (if out then 1 else 0) arrow) after
    | none =>
      match if c.isDigit then Arrow.read? rest else none with
      | some (_, arrow, after) => give (.arrow (c.toNat - '0'.toNat) arrow) after
      | none => return .word (← pieces commands fuel .word false)

def peek (commands : CommandReader) (fuel : Nat) : Reading Token := do
  let t ← token commands fuel
  modify fun s => { s with ahead := some t }
  pure t

end DeferredOpen.Shell
