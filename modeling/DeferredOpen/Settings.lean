import DeferredOpen.Delay.Reading
import DeferredOpen.Fault.Basic
import DeferredOpen.Path
import DeferredOpen.Stop

/-!
# Settings

Two variables say how long to wait and which file to open. `Settings.read` asks for the delay
first and for the file only when the delay is settled, and keeps the names asked for.
-/

namespace DeferredOpen

inductive Variable where
  | delay
  | file
  deriving DecidableEq, Repr

def Variable.name : Variable → String
  | .delay => "FORK_PROBE_DELAY"
  | .file => "FORK_PROBE_FILE"

inductive Lookup where
  | unset
  | value (text : String)
  | failed (text : String)
  deriving DecidableEq, Repr

structure Settings where
  delay : Duration := .ofMilliseconds 200
  file : Path := .ofString "x"
  deriving DecidableEq, Repr

namespace Settings

def same (a b : Settings) : Bool := a.delay = b.delay && a.file.same b.file

def text (s : Settings) : String :=
  "Config \x7b delay: " ++ s.delay.text ++ ", file: " ++ s.file.quoted ++ " \x7d"

def delayOf : Lookup → Except Stop Duration
  | .unset => .ok ({} : Settings).delay
  | .failed text => .error (.failed (.ofText text))
  | .value text =>
    match Delay.read text.toList with
    | .accepted d => .ok d
    | .cutInsideCharacter => .error .panicked
    | .invalid =>
      .error (.failed (.ofText ("Invalid value '" ++ text ++ "' for " ++ Variable.delay.name)))

def fileOf : Lookup → Except Stop Path
  | .unset => .ok ({} : Settings).file
  | .failed text => .error (.failed (.ofText text))
  | .value text =>
    if text = "" then .error (.failed (.ofText (Variable.file.name ++ " must not be empty")))
    else .ok (.ofString text)

/-- What reading settings gives, and the variables asked for on the way. -/
structure Reading where
  asked : List Variable
  result : Except Stop Settings

def read (ask : Variable → Lookup) : Reading :=
  match delayOf (ask .delay) with
  | .error stop => ⟨[.delay], .error stop⟩
  | .ok delay =>
    match fileOf (ask .file) with
    | .error stop => ⟨[.delay, .file], .error stop⟩
    | .ok file => ⟨[.delay, .file], .ok { delay, file }⟩

/-- Where settings come from: the answers for the two variables, or the settings themselves. -/
inductive Source where
  | answers (delay file : Lookup)
  | given (settings : Settings)

def Source.settings : Source → Except Stop Settings
  | .answers delay file =>
    (read fun
      | .delay => delay
      | .file => file).result
  | .given settings => .ok settings

end Settings

end DeferredOpen
