import DeferredOpen.Shell.Arithmetic
import DeferredOpen.Shell.Field

/-!
# Expanding words

The value of a parameter, the output of a command or the result of a calculation takes the place
of what asks for it. Commands are run by whoever runs the script.
-/

namespace DeferredOpen.Shell

def digitsOf (n : Nat) : Text := (toString n).toList

/-- Runs commands and gives what they write. -/
abbrev Capture := Option Command → Running Text

namespace State

def separators (s : State) : Text := (s.value? "IFS".toList).getD [' ', '\t', '\n']

/-- The value of a parameter that stands for one text. -/
def parameter? (s : State) (name : Text) : Option Text :=
  match name with
  | ['#'] => some (digitsOf s.arguments.length)
  | ['?'] => some (digitsOf s.status)
  | ['$'] => some (digitsOf s.number)
  | ['!'] => s.jobs.head?.map fun job => digitsOf job.1
  | ['-'] => some s.options
  | _ =>
    match Text.number? name with
    | some 0 => some s.name
    | some (n + 1) => s.arguments[n]?
    | none => s.value? name

def isAll (name : Text) : Bool := name = ['@'] || name = ['*']

def allArguments (s : State) : Text :=
  let between := match s.value? "IFS".toList with
    | some [] => []
    | some (c :: _) => [c]
    | none => [' ']
  between.intercalate s.arguments

/-- The text that a parameter stands for, also when that is all arguments. -/
def wholeValue? (s : State) (name : Text) : Option Text :=
  if isAll name then some s.allArguments
  else s.parameter? name

def argumentMarks (s : State) (quoted : Bool) : List Mark :=
  [Mark.gap].intercalate (s.arguments.map fun a => Mark.ofResult a quoted)

def marksOf (s : State) (name : Text) (quoted : Bool) : List Mark :=
  if name = ['@'] ∨ (name = ['*'] ∧ ¬ quoted) then s.argumentMarks quoted
  else Mark.ofResult ((s.wholeValue? name).getD []) quoted

end State

namespace Running

/-- Refuses a parameter that has no value, if the script wants them all to have one. -/
def needValue (name : Text) : Running Unit := do
  let s ← get
  if s.has 'u' && !State.isAll name && (s.wholeValue? name).isNone then refuse

/-- The marks of a word that stands in for a parameter. -/
def standIn (quoted : Bool) (marks : List Mark) : List Mark :=
  if quoted then if marks.isEmpty then [.empty] else marks
  else marks.map fun
    | .char c q _ => .char c q true
    | m => m

def calculate (t : Text) : Running Text := do
  let s ← get
  match Arithmetic.read? t with
  | none => refuse
  | some e =>
    match e.evaluate (fun x => (s.parameter? x).getD []) [] with
    | none => refuse
    | some (n, given) =>
      for (x, value) in given.reverse do assign x value
      pure (Arithmetic.digits n)

def marks (capture : Capture) : Nat → Word → Running (List Mark)
  | 0, _ => jump .exhausted
  | _, [] => pure []
  | fuel + 1, piece :: rest => do
    let first ← match piece with
      | .text cs quoted => pure (Mark.ofText cs quoted)
      | .command body quoted =>
        let t ← capture body
        pure (Mark.ofResult t quoted)
      | .arithmetic word quoted =>
        let t := Mark.joined (← marks capture fuel word)
        pure (Mark.ofResult (← calculate t) quoted)
      | .parameter name use quoted =>
        let s ← get
        let value := s.wholeValue? name
        match use with
        | .bad => refuse
        | .value =>
          needValue name
          pure (s.marksOf name quoted)
        | .length =>
          needValue name
          pure (Mark.ofResult (digitsOf (value.getD []).length) quoted)
        | .trim atEnd longest pattern =>
          needValue name
          match value with
          | none => pure (Mark.ofResult [] quoted)
          | some t =>
            let pattern := Pattern.ofMarked (Mark.marked (← marks capture fuel pattern))
            pure (Mark.ofResult (if atEnd then pattern.trimEnd longest t
              else pattern.trimStart longest t) quoted)
        | .substitute how orEmpty word =>
          let isThere := value.any fun t => !orEmpty || !t.isEmpty
          match how, isThere with
          | .ifSet, true => standIn quoted <$> marks capture fuel word
          | .ifSet, false => pure (standIn quoted [])
          | _, true => pure (s.marksOf name quoted)
          | .instead, false => standIn quoted <$> marks capture fuel word
          | .assigned, false =>
            let t := Mark.joined (← marks capture fuel word)
            if Text.isName name then
              assign name t
              pure (Mark.ofResult t quoted)
            else refuse
          | .refused, false => refuse
    return first ++ (← marks capture fuel rest)

def fields (capture : Capture) (fuel : Nat) (word : Word) : Running (List Text) := do
  let ms ← marks capture fuel word
  let s ← get
  let split := splitFields s.separators ms
  pure (if s.has 'f' then split.map (·.map (·.1)) else split.flatMap (expandPaths s.files))

/-- The text of a word that is not split. -/
def textOf (capture : Capture) (fuel : Nat) (word : Word) : Running Text :=
  Mark.joined <$> marks capture fuel word

def patternOf (capture : Capture) (fuel : Nat) (word : Word) : Running Pattern := do
  return Pattern.ofMarked (Mark.marked (← marks capture fuel word))

end Running

end DeferredOpen.Shell
