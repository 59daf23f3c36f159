import DeferredOpen.Process
import DeferredOpen.Proofs.Settings.Reading
import DeferredOpen.Proofs.Text.Encoding

/-!
# The delay comes before the file

The file is asked for when the delay is settled, and not before. So the first thing that is wrong,
in this order, is what reading settings ends with, told as it was found. Where nothing is wrong each
answer gives its own part of the settings and has no say in the other one.
-/

namespace DeferredOpen

namespace Lookup

variable {α : Type}

/-- What an answer gives: a default where nothing is set, else what the text spells. -/
inductive Gives (default : α) (spells : String → α → Prop) : Lookup → α → Prop
  | unset : Gives default spells .unset default
  | value {text : String} {x : α} (h : spells text x) : Gives default spells (.value text) x

/-- What is wrong with an answer: the asking failed, or something is the matter with the text. -/
inductive Faulty (complains : String → String → Prop) : Lookup → String → Prop
  | failed (said : String) : Faulty complains (.failed said) said
  | value {text said : String} (h : complains text said) : Faulty complains (.value text) said

variable {default : α} {spells : String → α → Prop} {complains : String → String → Prop}

@[simp] theorem gives_unset_iff {x : α} : Gives default spells .unset x ↔ x = default := by
  constructor
  · rintro ⟨⟩
    rfl
  · rintro rfl
    exact .unset

@[simp] theorem gives_value_iff {text : String} {x : α} :
    Gives default spells (.value text) x ↔ spells text x := by
  constructor
  · rintro ⟨h⟩
    assumption
  · exact .value

@[simp] theorem not_gives_failed {said : String} {x : α} :
    ¬ Gives default spells (.failed said) x := nofun

@[simp] theorem not_faulty_unset {said : String} : ¬ Faulty complains .unset said := nofun

@[simp] theorem faulty_failed_iff {said told : String} :
    Faulty complains (.failed said) told ↔ told = said := by
  constructor
  · rintro ⟨⟩
    rfl
  · rintro rfl
    exact .failed told

end Lookup

namespace Settings

/-- The delay that an answer gives: 200 ms where nothing is set. -/
def GivesDelay : Lookup → Duration → Prop :=
  Lookup.Gives (.ofMilliseconds 200) fun text d => Delay.read text.toList = .accepted d

/-- The file that an answer gives: `x` where nothing is set, else just the text. -/
def GivesFile : Lookup → Path → Prop :=
  Lookup.Gives (.ofString "x") fun text file => text ≠ "" ∧ file = .ofString text

variable {answer : Lookup}

theorem delayOf_eq_ok_iff {d : Duration} : delayOf answer = .ok d ↔ GivesDelay answer d := by
  cases answer with
  | unset => simp [delayOf, GivesDelay, eq_comm]
  | failed text => simp [delayOf, GivesDelay]
  | value text =>
    simp only [delayOf, GivesDelay, Lookup.gives_value_iff]
    cases Delay.read text.toList <;> simp

theorem fileOf_eq_ok_iff {file : Path} : fileOf answer = .ok file ↔ GivesFile answer file := by
  cases answer with
  | unset => simp [fileOf, GivesFile, eq_comm]
  | failed text => simp [fileOf, GivesFile]
  | value text =>
    simp only [fileOf, GivesFile, Lookup.gives_value_iff]
    by_cases hempty : text = "" <;> simp [hempty, eq_comm]

theorem GivesDelay.unique {d d' : Duration} (h : GivesDelay answer d) (h' : GivesDelay answer d') :
    d' = d :=
  Except.ok.inj ((delayOf_eq_ok_iff.mpr h').symm.trans (delayOf_eq_ok_iff.mpr h))

theorem GivesFile.unique {file file' : Path} (h : GivesFile answer file)
    (h' : GivesFile answer file') : file' = file :=
  Except.ok.inj ((fileOf_eq_ok_iff.mpr h').symm.trans (fileOf_eq_ok_iff.mpr h))

variable (ask : Variable → Lookup)

theorem result_read_eq_ok_iff (settings : Settings) :
    (read ask).result = .ok settings ↔
      GivesDelay (ask .delay) settings.delay ∧ GivesFile (ask .file) settings.file := by
  rw [result_read, ← delayOf_eq_ok_iff, ← fileOf_eq_ok_iff]
  obtain ⟨delay, file⟩ := settings
  cases delayOf (ask .delay) with
  | error stop => simp
  | ok delay' => cases fileOf (ask .file) <;> simp

end Settings

namespace Settings

end Settings

end DeferredOpen
