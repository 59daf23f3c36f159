import DeferredOpen.Text.Utf8

/-!
# What scripts are made of

The command interpreter works on bytes. Here each byte is the character of the same number, so a
script, a word and the value of a variable are all lists of characters.

A word is made of pieces; a command is made of words, redirections and other commands.
-/

namespace DeferredOpen.Shell

/-- Bytes, each as the character of the same number. -/
abbrev Text := List Char

namespace Text

def ofBytes (bytes : Bytes) : Text := bytes.map fun b => Char.ofNat b.toNat

def toBytes (t : Text) : Bytes := t.map fun c => UInt8.ofNat c.toNat

def ofString (s : String) : Text := ofBytes (Utf8.encode s)

def beginsName (c : Char) : Bool := c.isAlpha || c = '_'

def continuesName (c : Char) : Bool := beginsName c || c.isDigit

def isName : Text → Bool
  | [] => false
  | c :: rest => beginsName c && rest.all continuesName

/-- A name, the mark of an assignment, and the rest. -/
def assignment? (t : Text) : Option (Text × Text) :=
  let name := t.takeWhile continuesName
  match t.drop name.length with
  | '=' :: value => if isName name then some (name, value) else none
  | _ => none

def number? (t : Text) : Option Nat :=
  if t ≠ [] ∧ t.all Char.isDigit then
    some (t.foldl (fun n c => n * 10 + (c.toNat - '0'.toNat)) 0)
  else none

end Text

/-- How a parameter without a value, or with an empty one, is made up for. -/
inductive Substitute where
  /-- Another word stands in. -/
  | instead
  /-- Another word stands in and becomes the value. -/
  | assigned
  /-- Another word stands in for a value, and nothing for none. -/
  | ifSet
  /-- The script ends. -/
  | refused
  deriving DecidableEq, Repr

mutual

/-- A part of a word. What is quoted is neither split nor a pattern. -/
inductive Piece where
  | text (chars : Text) (quoted : Bool)
  | parameter (name : Text) (use : Use) (quoted : Bool)
  | command (body : Option Command) (quoted : Bool)
  | arithmetic (word : List Piece) (quoted : Bool)

inductive Use where
  | value
  | length
  /-- The value, or what stands in for it; `orEmpty` when an empty value is like none. -/
  | substitute (how : Substitute) (orEmpty : Bool) (word : List Piece)
  /-- The value without the part at one end that matches a pattern. -/
  | trim (atEnd longest : Bool) (pattern : List Piece)
  /-- A use that has no meaning. -/
  | bad

inductive Redirection where
  | output (stream : Nat) (append : Bool) (target : List Piece)
  | input (stream : Nat) (target : List Piece)
  | both (stream : Nat) (target : List Piece)
  | copy (stream : Nat) (source : List Piece)
  | document (stream : Nat) (number : Nat)

inductive Command where
  | simple (assignments : List (Text × List Piece)) (words : List (List Piece))
    (redirections : List Redirection)
  | pipeline (commands : List Command)
  | negation (command : Command)
  | conjunction (first second : Command)
  | disjunction (first second : Command)
  | sequence (first second : Command)
  | background (command : Command)
  | subshell (body : Option Command)
  | branch (condition : Option Command) (body : Option Command) (other : Option Command)
  | loop (whileFails : Bool) (condition : Option Command) (body : Option Command)
  | each (name : Text) (words : List (List Piece)) (body : Option Command)
  | choice (word : List Piece) (clauses : List (List (List Piece) × Option Command))
  | definition (name : Text) (body : Command)
  | redirected (command : Command) (redirections : List Redirection)

end

abbrev Word := List Piece

end DeferredOpen.Shell
