import DeferredOpen.Shell.Grammar

/-!
# Patterns

In a pattern a star stands for any text, a question mark for any character, and brackets for one
character out of a set. Quoted characters stand for themselves.
-/

namespace DeferredOpen.Shell

/-- A character of a pattern, and whether it is quoted. -/
abbrev Marked := Char × Bool

inductive Pattern.Part where
  | character (c : Char)
  | anyCharacter
  | anyText
  | oneOf (negated : Bool) (members : List (Char → Bool))

abbrev Pattern := List Pattern.Part

namespace Pattern

def named (name : String) : Char → Bool :=
  match name with
  | "alnum" => fun c => c.isAlphanum
  | "alpha" => fun c => c.isAlpha
  | "blank" => fun c => c = ' ' || c = '\t'
  | "cntrl" => fun c => c.toNat < 32 || c.toNat = 127
  | "digit" => fun c => c.isDigit
  | "graph" => fun c => 32 < c.toNat && c.toNat < 127
  | "lower" => fun c => c.isLower
  | "print" => fun c => 32 ≤ c.toNat && c.toNat < 127
  | "punct" => fun c => 32 < c.toNat && c.toNat < 127 && !c.isAlphanum
  | "space" => fun c => c = ' ' || (9 ≤ c.toNat && c.toNat ≤ 13)
  | "upper" => fun c => c.isUpper
  | "xdigit" => fun c => c.isDigit || ('a' ≤ c && c ≤ 'f') || ('A' ≤ c && c ≤ 'F')
  | _ => fun _ => false

/-- The members of a set up to its closing bracket, and what follows; `first` for the place where
a closing bracket is a member. -/
def members : Nat → Bool → List Marked → Option (List (Char → Bool) × List Marked)
  | 0, _, _ | _, _, [] => none
  | n + 1, first, (c, quoted) :: rest =>
    if c = ']' ∧ ¬ quoted ∧ ¬ first then some ([], rest)
    else
      let single := (members n false rest).map fun (ms, after) => ((· == c) :: ms, after)
      match rest with
      | (':', false) :: inside =>
        let name := (inside.takeWhile (·.1 ≠ ':')).map (·.1)
        match inside.drop name.length with
        | (':', false) :: (']', false) :: after =>
          if c = '[' ∧ ¬ quoted then
            (members n false after).map fun (ms, after) =>
              (named (String.ofList name) :: ms, after)
          else single
        | _ => single
      | ('-', false) :: (high, highQuoted) :: after =>
        if high = ']' ∧ ¬ highQuoted then single
        else (members n false after).map fun (ms, after) =>
          ((fun x => decide (c ≤ x) && decide (x ≤ high)) :: ms, after)
      | _ => single

/-- The parts of a pattern; each has at least one character. -/
def parts : Nat → List Marked → Pattern
  | 0, _ | _, [] => []
  | n + 1, (c, quoted) :: rest =>
    if quoted then .character c :: parts n rest
    else match c with
    | '*' => .anyText :: parts n rest
    | '?' => .anyCharacter :: parts n rest
    | '[' =>
      let (negated, inside) := match rest with
        | ('!', false) :: inside => (true, inside)
        | ('^', false) :: inside => (true, inside)
        | _ => (false, rest)
      match members (n + 1) true inside with
      | some (ms, after) => .oneOf negated ms :: parts n after
      | none => .character c :: parts n rest
    | '\\' =>
      match rest with
      | (d, _) :: after => .character d :: parts n after
      | [] => [.character c]
    | _ => .character c :: parts n rest

def ofMarked (cs : List Marked) : Pattern := parts cs.length cs

def Part.allows (part : Part) (c : Char) : Bool :=
  match part with
  | .character d => c = d
  | .anyCharacter => true
  | .anyText => false
  | .oneOf negated ms => (ms.any fun m => m c) != negated

def fits : Pattern → Text → Bool
  | [], t => t.isEmpty
  | .anyText :: ps, t => starMatches (fits ps) t
  | _ :: _, [] => false
  | p :: ps, c :: t => p.allows c && fits ps t
where
  /-- Whether what is left after some characters fulfils a condition. -/
  starMatches (rest : Text → Bool) : Text → Bool
    | [] => rest []
    | c :: t => rest (c :: t) || starMatches rest t

/-- Whether a pattern has a part that stands for more than one character. -/
def isWild (ps : Pattern) : Bool :=
  ps.any fun
    | .character _ => false
    | _ => true

/-- A text without the part at its end that a pattern stands for: the longest or the shortest. -/
def trimEnd (ps : Pattern) (longest : Bool) (t : Text) : Text :=
  let cuts := (List.range (t.length + 1)).filter fun n => fits ps (t.drop n)
  match if longest then cuts.head? else cuts.getLast? with
  | some n => t.take n
  | none => t

def trimStart (ps : Pattern) (longest : Bool) (t : Text) : Text :=
  let cuts := (List.range (t.length + 1)).filter fun n => fits ps (t.take n)
  match if longest then cuts.getLast? else cuts.head? with
  | some n => t.drop n
  | none => t

end Pattern

end DeferredOpen.Shell
