import DeferredOpen.Shell.Grammar

/-!
# Calculations

A calculation is over whole numbers of 64 bits, with the operators of a common rank order. A
name stands for the number that its value spells; a name without a value is zero.
-/

namespace DeferredOpen.Shell.Arithmetic

inductive Binary where
  | times | quotient | remainder
  | plus | minus
  | left | right
  | less | atMost | greater | atLeast
  | equal | unequal
  | and | exclusive | or
  deriving DecidableEq, Repr

def Binary.rank : Binary → Nat
  | .times | .quotient | .remainder => 10
  | .plus | .minus => 9
  | .left | .right => 8
  | .less | .atMost | .greater | .atLeast => 7
  | .equal | .unequal => 6
  | .and => 5
  | .exclusive => 4
  | .or => 3

inductive Unary where
  | plus | minus | not | complement
  deriving DecidableEq, Repr

inductive Expression where
  | number (n : Int64)
  | name (name : Text)
  | unary (op : Unary) (e : Expression)
  | binary (op : Binary) (a b : Expression)
  | both (a b : Expression)
  | either (a b : Expression)
  | choice (condition a b : Expression)
  | assign (name : Text) (op : Option Binary) (e : Expression)

inductive Token where
  | number (n : Int64)
  | name (name : Text)
  | binary (op : Binary)
  | assign (op : Option Binary)
  | both | either | not | complement | question | colon | opening | closing
  deriving DecidableEq, Repr

def digit (c : Char) : Nat :=
  if c.isDigit then c.toNat - '0'.toNat else c.toLower.toNat - 'a'.toNat + 10

def spelled (base : Nat) (ds : Text) : Nat := ds.foldl (fun n c => n * base + digit c) 0

def isHex (c : Char) : Bool := c.isDigit || ('a' ≤ c && c ≤ 'f') || ('A' ≤ c && c ≤ 'F')

/-- The number at the beginning of a text, and what follows: sixteen is the base after `0x`, and
eight after another zero. -/
def constant? (t : Text) : Option (Nat × Text) :=
  match t with
  | '0' :: x :: d :: rest =>
    if (x = 'x' ∨ x = 'X') ∧ isHex d then
      let ds := (d :: rest).takeWhile isHex
      some (spelled 16 ds, (d :: rest).drop ds.length)
    else octal t
  | '0' :: _ => octal t
  | c :: _ =>
    if c.isDigit then
      let ds := t.takeWhile Char.isDigit
      some (spelled 10 ds, t.drop ds.length)
    else none
  | [] => none
where
  /-- A number with digits of base eight. -/
  octal (t : Text) : Option (Nat × Text) :=
    let ds := t.takeWhile fun c => '0' ≤ c && c ≤ '7'
    some (spelled 8 ds, t.drop ds.length)

def isBlank (c : Char) : Bool := c = ' ' || (9 ≤ c.toNat && c.toNat ≤ 13)

/-- The number that a whole text spells in some way of writing numbers, with blanks around it and
a sign before it. -/
def signed? (constant : Text → Option (Nat × Text)) (t : Text) : Option Int :=
  let t := t.dropWhile isBlank
  let (negative, t) := match t with
    | '-' :: rest => (true, rest)
    | '+' :: rest => (false, rest)
    | _ => (false, t)
  match constant t with
  | some (n, rest) =>
    let value : Int := if negative then -n else n
    if rest.all isBlank && decide (-Int.pow 2 63 ≤ value) && decide (value < Int.pow 2 63) then
      some value
    else none
  | none => none

def decimal? : Text → Option Int :=
  signed? fun t =>
    let ds := t.takeWhile Char.isDigit
    if ds.isEmpty then none else some (spelled 10 ds, t.drop ds.length)

/-- The number that the value of a name spells; blanks alone spell zero. -/
def valueOf? (t : Text) : Option Int64 :=
  if t.all isBlank then some 0 else (signed? constant? t).map Int64.ofInt

def operator? : Text → Option (Token × Text)
  | '<' :: '<' :: '=' :: r => some (.assign (some .left), r)
  | '>' :: '>' :: '=' :: r => some (.assign (some .right), r)
  | '<' :: '<' :: r => some (.binary .left, r)
  | '>' :: '>' :: r => some (.binary .right, r)
  | '<' :: '=' :: r => some (.binary .atMost, r)
  | '>' :: '=' :: r => some (.binary .atLeast, r)
  | '=' :: '=' :: r => some (.binary .equal, r)
  | '!' :: '=' :: r => some (.binary .unequal, r)
  | '&' :: '&' :: r => some (.both, r)
  | '|' :: '|' :: r => some (.either, r)
  | '*' :: '=' :: r => some (.assign (some .times), r)
  | '/' :: '=' :: r => some (.assign (some .quotient), r)
  | '%' :: '=' :: r => some (.assign (some .remainder), r)
  | '+' :: '=' :: r => some (.assign (some .plus), r)
  | '-' :: '=' :: r => some (.assign (some .minus), r)
  | '&' :: '=' :: r => some (.assign (some .and), r)
  | '^' :: '=' :: r => some (.assign (some .exclusive), r)
  | '|' :: '=' :: r => some (.assign (some .or), r)
  | '=' :: r => some (.assign none, r)
  | '<' :: r => some (.binary .less, r)
  | '>' :: r => some (.binary .greater, r)
  | '&' :: r => some (.binary .and, r)
  | '|' :: r => some (.binary .or, r)
  | '^' :: r => some (.binary .exclusive, r)
  | '*' :: r => some (.binary .times, r)
  | '/' :: r => some (.binary .quotient, r)
  | '%' :: r => some (.binary .remainder, r)
  | '+' :: r => some (.binary .plus, r)
  | '-' :: r => some (.binary .minus, r)
  | '!' :: r => some (.not, r)
  | '~' :: r => some (.complement, r)
  | '?' :: r => some (.question, r)
  | ':' :: r => some (.colon, r)
  | '(' :: r => some (.opening, r)
  | ')' :: r => some (.closing, r)
  | _ => none

/-- The tokens of a text; each has at least one character. -/
def tokens : Nat → Text → Option (List Token)
  | _, [] => some []
  | 0, _ => none
  | n + 1, c :: rest =>
    if isBlank c then tokens n rest
    else if c.isDigit then do
      let (value, after) ← constant? (c :: rest)
      return .number (Int64.ofNat (min value (Nat.pow 2 63 - 1))) :: (← tokens n after)
    else if Text.beginsName c then do
      let name := (c :: rest).takeWhile Text.continuesName
      return .name name :: (← tokens n ((c :: rest).drop name.length))
    else do
      let (t, after) ← operator? (c :: rest)
      return t :: (← tokens n after)

mutual

def operand : Nat → List Token → Option (Expression × List Token)
  | 0, _ => none
  | n + 1, ts =>
    match ts with
    | .number v :: rest => some (.number v, rest)
    | .name name :: rest => some (.name name, rest)
    | .opening :: rest => do
      match ← whole n rest with
      | (e, .closing :: after) => some (e, after)
      | _ => none
    | .binary .plus :: rest => do
      let (e, after) ← operand n rest
      some (.unary .plus e, after)
    | .binary .minus :: rest => do
      let (e, after) ← operand n rest
      some (.unary .minus e, after)
    | .not :: rest => do
      let (e, after) ← operand n rest
      some (.unary .not e, after)
    | .complement :: rest => do
      let (e, after) ← operand n rest
      some (.unary .complement e, after)
    | _ => none

/-- Reads operands while the operators between them bind at least as closely as a rank. -/
def climb : Nat → Nat → Expression → List Token → Option (Expression × List Token)
  | 0, _, _, _ => none
  | n + 1, rank, a, ts =>
    match ts with
    | .binary op :: rest =>
      if op.rank < rank then some (a, ts)
      else do
        let (b, after) ← operand n rest
        let (b, after) ← climb n (op.rank + 1) b after
        climb n rank (.binary op a b) after
    | .both :: rest =>
      if 2 < rank then some (a, ts)
      else do
        let (b, after) ← operand n rest
        let (b, after) ← climb n 3 b after
        climb n rank (.both a b) after
    | .either :: rest =>
      if 1 < rank then some (a, ts)
      else do
        let (b, after) ← operand n rest
        let (b, after) ← climb n 2 b after
        climb n rank (.either a b) after
    | _ => some (a, ts)

/-- Reads a choice, or what has no choice in it. -/
def conditional : Nat → List Token → Option (Expression × List Token)
  | 0, _ => none
  | n + 1, ts => do
    let (a, after) ← operand n ts
    let (a, after) ← climb n 1 a after
    match after with
    | .question :: rest =>
      match ← whole n rest with
      | (b, .colon :: rest) =>
        let (c, rest) ← conditional n rest
        some (.choice a b c, rest)
      | _ => none
    | _ => some (a, after)

def whole : Nat → List Token → Option (Expression × List Token)
  | 0, _ => none
  | n + 1, ts =>
    match ts with
    | .name name :: .assign op :: rest => do
      let (e, after) ← whole n rest
      some (.assign name op e, after)
    | _ => conditional n ts

end

def read? (t : Text) : Option Expression := do
  let ts ← tokens t.length t
  match ← whole (4 * ts.length + 8) ts with
  | (e, []) => some e
  | _ => none

def ofBool (b : Bool) : Int64 := if b then 1 else 0

def Binary.apply (op : Binary) (a b : Int64) : Option Int64 :=
  match op with
  | .times => some (a * b)
  | .quotient => if b = 0 then none else some (a / b)
  | .remainder => if b = 0 then none else some (a % b)
  | .plus => some (a + b)
  | .minus => some (a - b)
  | .left => some (a <<< b)
  | .right => some (a >>> b)
  | .less => some (ofBool (a < b))
  | .atMost => some (ofBool (a ≤ b))
  | .greater => some (ofBool (b < a))
  | .atLeast => some (ofBool (b ≤ a))
  | .equal => some (ofBool (a = b))
  | .unequal => some (ofBool (a ≠ b))
  | .and => some (a &&& b)
  | .exclusive => some (a ^^^ b)
  | .or => some (a ||| b)

def Unary.apply (op : Unary) (a : Int64) : Int64 :=
  match op with
  | .plus => a
  | .minus => -a
  | .not => ofBool (a = 0)
  | .complement => ~~~a

def digits (n : Int64) : Text := (toString n.toInt).toList

/-- The names that a calculation has given a value, the newest first. -/
abbrev Given := List (Text × Text)

/-- Does a calculation. It has no result when it divides by zero or a name has a value that is no
number; `value` gives the values of names. -/
def Expression.evaluate (value : Text → Text) (given : Given) :
    Expression → Option (Int64 × Given)
  | .number n => some (n, given)
  | .name x => (valueOf? ((given.lookup x).getD (value x))).map (·, given)
  | .unary op e => do
    let (a, given) ← e.evaluate value given
    some (op.apply a, given)
  | .binary op a b => do
    let (x, given) ← a.evaluate value given
    let (y, given) ← b.evaluate value given
    (op.apply x y).map (·, given)
  | .both a b => do
    let (x, given) ← a.evaluate value given
    if x = 0 then some (0, given)
    else
      let (y, given) ← b.evaluate value given
      some (ofBool (y ≠ 0), given)
  | .either a b => do
    let (x, given) ← a.evaluate value given
    if x ≠ 0 then some (1, given)
    else
      let (y, given) ← b.evaluate value given
      some (ofBool (y ≠ 0), given)
  | .choice c a b => do
    let (x, given) ← c.evaluate value given
    if x ≠ 0 then a.evaluate value given else b.evaluate value given
  | .assign x op e => do
    let (y, given) ← e.evaluate value given
    match op with
    | none => some (y, (x, digits y) :: given)
    | some op =>
      let old ← valueOf? ((given.lookup x).getD (value x))
      let new ← op.apply old y
      some (new, (x, digits new) :: given)

end DeferredOpen.Shell.Arithmetic
