import DeferredOpen.Files.Walk
import DeferredOpen.Shell.Arithmetic

/-!
# Conditions

A condition is about texts, numbers or files. It is read from words: `!`, `-a` and `-o` join
conditions, in this order of closeness, and parentheses keep them together. A word that could be
an operator is one only if that leaves an operand for it.
-/

namespace DeferredOpen.Shell.Condition

inductive Role where
  | about
  | between
  | not
  | and
  | or
  | opening
  | closing
  | operand
  deriving DecidableEq, Repr

/-- What a word looks like by itself. -/
def looks (word : Text) : Role :=
  let s := String.ofList word
  if s = "!" then .not
  else if s = "-a" then .and
  else if s = "-o" then .or
  else if s = "(" then .opening
  else if s = ")" then .closing
  else if ["=", "!=", "<", ">", "-eq", "-ne", "-ge", "-gt", "-le", "-lt", "-nt", "-ot",
      "-ef"].contains s then .between
  else if ["-r", "-w", "-x", "-e", "-f", "-d", "-c", "-b", "-p", "-u", "-g", "-k", "-s", "-t",
      "-z", "-n", "-h", "-O", "-G", "-L", "-S"].contains s then .about
  else .operand

def role : List Text → Role
  | [] => .operand
  | word :: rest =>
    match looks word with
    | .about =>
      match rest with
      | [] => .operand
      | [_] => .about
      | next :: _ => if looks next = .between then .operand else .about
    | .opening => if rest.isEmpty then .operand else .opening
    | r => r

def about (files : Files) (op : String) (word : Text) : Bool :=
  let path : Path := ⟨word.toBytes⟩
  let found (p : Entry → Bool) : Bool :=
    match files.entry path with
    | .ok entry => p entry
    | .error _ => false
  match op with
  | "-z" => word.isEmpty
  | "-n" => !word.isEmpty
  | "-e" | "-r" | "-w" | "-O" | "-G" => found fun _ => true
  | "-f" => found fun | .file _ _ => true | _ => false
  | "-d" => found (· = .directory)
  | "-c" => found (· = .device)
  | "-S" => found (· = .socket)
  | "-x" => found fun | .file _ runnable => runnable | .directory => true | _ => false
  | "-s" => found fun
    | .file (.data bytes) _ => !bytes.isEmpty
    | .file (.program _) _ | .directory => true
    | _ => false
  | "-h" | "-L" =>
    match files.entryItself path with
    | .ok (.link _) => true
    | _ => false
  | _ => false

def between (files : Files) (op : String) (a b : Text) : Option Bool :=
  let numbers (p : Int → Int → Bool) : Option Bool := do
    let m ← Arithmetic.decimal? a
    let n ← Arithmetic.decimal? b
    some (p m n)
  match op with
  | "=" => some (a = b)
  | "!=" => some (a ≠ b)
  | "<" => some (decide (a < b))
  | ">" => some (decide (b < a))
  | "-eq" => numbers fun m n => m = n
  | "-ne" => numbers fun m n => m ≠ n
  | "-ge" => numbers fun m n => n ≤ m
  | "-gt" => numbers fun m n => n < m
  | "-le" => numbers fun m n => m ≤ n
  | "-lt" => numbers fun m n => m < n
  | "-ef" =>
    match files.resolve ⟨a.toBytes⟩, files.resolve ⟨b.toBytes⟩ with
    | .ok s, .ok t => some (s = t)
    | _, _ => some false
  | _ => some false

mutual

/-- A single condition, with the words that begin at its last one. -/
def single (files : Files) : Nat → List Text → Option (Bool × List Text)
  | 0, _ => none
  | n + 1, ws =>
    match ws with
    | [] => some (false, [])
    | word :: rest =>
      match role ws with
      | .not => do
        let (b, left) ← single files n rest
        some (!b, left)
      | .opening =>
        if rest.isEmpty ∨ role rest = .closing ∧ rest ≠ [] then some (false, rest)
        else do
          let (b, left) ← anyOf files n rest
          match left.drop 1 with
          | close :: after => if looks close = .closing then some (b, close :: after) else none
          | [] => none
      | .about =>
        match rest with
        | [] => none
        | operand :: _ => some (about files (String.ofList word) operand, rest)
      | _ =>
        match rest with
        | op :: after =>
          if role rest = .between then
            match after with
            | [] => none
            | other :: _ => (between files (String.ofList op) word other).map (·, after)
          else some (!word.isEmpty, ws)
        | [] => some (!word.isEmpty, ws)

def allOf (files : Files) : Nat → List Text → Option (Bool × List Text)
  | 0, _ => none
  | n + 1, ws => do
    let (b, left) ← single files n ws
    match left.drop 1 with
    | next :: rest =>
      if role (next :: rest) = .and then
        let (others, left) ← allOf files n rest
        some (b && others, left)
      else some (b, left)
    | [] => some (b, left)

def anyOf (files : Files) : Nat → List Text → Option (Bool × List Text)
  | 0, _ => none
  | n + 1, ws => do
    let (b, left) ← allOf files n ws
    match left.drop 1 with
    | next :: rest =>
      if role (next :: rest) = .or then
        let (others, left) ← anyOf files n rest
        some (b || others, left)
      else some (b, left)
    | [] => some (b, left)

end

def whole (files : Files) (ws : List Text) : Option Bool := do
  let (b, left) ← anyOf files (4 * ws.length + 8) ws
  if (left.drop 1).isEmpty then some b else none

/-- Whether a condition holds. With three or four words the outermost form is settled first. -/
def holds (files : Files) : List Text → Option Bool
  | [] => some false
  | [a, b, c] =>
    if looks b = .between then between files (String.ofList b) a c
    else if a = ['('] ∧ c = [')'] then whole files [b]
    else if a = ['!'] then (holds files [b, c]).map (!·)
    else whole files [a, b, c]
  | [a, b, c, d] =>
    if a = ['('] ∧ d = [')'] then whole files [b, c]
    else if a = ['!'] then (holds files [b, c, d]).map (!·)
    else whole files [a, b, c, d]
  | ws => whole files ws

end DeferredOpen.Shell.Condition
