import DeferredOpen.Shell.State

/-!
# Options of scripts

A script goes through the options that it was given one by one. Options are letters after a hyphen;
several may share one, and some take the rest of the word, or the next word, as an argument. Two
hyphens, or a word that does not begin with one, end the options.
-/

namespace DeferredOpen.Shell.Options

open Running

/-- Whether an option takes an argument, by a list of letters of which those that do have a colon
behind them; nothing for an option that is not in the list. -/
def takesArgument? (letter : Char) : Text → Option Bool
  | [] => none
  | c :: ':' :: rest => if c = letter then some true else takesArgument? letter rest
  | c :: rest => if c = letter then some false else takesArgument? letter rest

structure Found where
  /-- The letter that is told, a question mark if there is none. -/
  letter : Char
  /-- What becomes of the argument's variable: its value, or that it is taken away; nothing at the
  end of the options. -/
  argument : Option (Option Text)
  reached : Reached
  status : Nat

def Found.finish (word : Nat) : Found := ⟨'?', none, { word }, 1⟩

/-- An option out of a word: its letter, what follows in the word, and the number of the next
word. -/
def found (letters : Text) (words : List Text) (letter : Char) (rest : Text) (next : Nat) :
    Found :=
  let quiet := letters.head? = some ':'
  let word := (words[next - 2]?).getD []
  let here : Reached := ⟨next, some (word.length - rest.length)⟩
  match takesArgument? letter letters with
  | none => ⟨'?', some (if quiet then some [letter] else none), here, 0⟩
  | some false => ⟨letter, some (some []), here, 0⟩
  | some true =>
    if rest ≠ [] then ⟨letter, some (some rest), { word := next }, 0⟩
    else match words[next - 1]? with
    | some argument => ⟨letter, some (some argument), { word := next + 1 }, 0⟩
    | none =>
      if quiet then ⟨':', some (some [letter]), { word := next }, 0⟩
      else ⟨'?', some none, { word := next }, 0⟩

/-- The next option of some words, from where the last look ended. -/
def look (letters : Text) (words : List Text) (reached : Reached) : Found :=
  let reached : Reached := if words.length + 1 < reached.word then {} else reached
  let left : Text := match reached.letter with
    | some n => if 1 < reached.word then ((words[reached.word - 2]?).getD []).drop n else []
    | none => []
  match left with
  | letter :: rest => found letters words letter rest reached.word
  | [] =>
    match words[reached.word - 1]? with
    | some ['-', '-'] => .finish (reached.word + 1)
    | some ('-' :: letter :: rest) => found letters words letter rest (reached.word + 1)
    | _ => .finish reached.word

def next (letters name : Text) (words : List Text) : Running Nat := do
  let f := look letters words (← get).reached
  match f.argument with
  | some (some argument) => assign "OPTARG".toList argument
  | some none => modify fun s => s.dropVariable "OPTARG".toList
  | none => pure ()
  assign "OPTIND".toList (toString f.reached.word).toList
  if Text.isName name then assign name [f.letter] else refuse
  modify fun s => { s with reached := f.reached }
  pure f.status

/-- Looks for the next option of the words, or of the arguments of the script. -/
def command (words : List Text) : Running Nat := do
  match words with
  | [letters, name] => next letters name (← get).arguments
  | letters :: name :: words => next letters name words
  | _ => refuse

end DeferredOpen.Shell.Options
