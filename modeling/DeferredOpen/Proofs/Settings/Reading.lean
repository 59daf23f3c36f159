import DeferredOpen.Proofs.Delay.Cut
import DeferredOpen.Settings

/-!
# What reading settings comes to

Reading settings gives settings or a fault, with one exception: a delay text that is cut inside a
character ends the whole process. No answer for the file does so.
-/

namespace DeferredOpen

namespace Delay

/-- A delay text is cut inside a character exactly when it cannot be split. -/
theorem read_eq_cutInsideCharacter_iff (cs : List Char) :
    read cs = .cutInsideCharacter ↔ CutsCharacter cs := by
  rw [← split_eq_none_iff, read]
  cases split cs with
  | none => simp
  | some s =>
    simp only [reduceCtorEq, iff_false]
    split
    · split <;> simp
    · simp

end Delay

namespace Settings

/-- Settings are read when both variables have been. -/
theorem result_read (ask : Variable → Lookup) :
    (read ask).result =
      match delayOf (ask .delay), fileOf (ask .file) with
      | .error stop, _ => .error stop
      | .ok _, .error stop => .error stop
      | .ok delay, .ok file => .ok { delay, file } := by
  unfold read
  cases delayOf (ask .delay) with
  | error stop => rfl
  | ok delay => cases fileOf (ask .file) <;> rfl

/-- The only thing that an answer for the file can lead to, other than a path, is a fault. -/
theorem fileOf_cases (answer : Lookup) :
    (∃ file, fileOf answer = .ok file) ∨ ∃ fault, fileOf answer = .error (.failed fault) := by
  cases answer with
  | unset => exact .inl ⟨_, rfl⟩
  | failed text => exact .inr ⟨_, rfl⟩
  | value text =>
    simp only [fileOf]
    split
    · exact .inr ⟨_, rfl⟩
    · exact .inl ⟨_, rfl⟩

/-- An answer for the delay leads to a duration, a fault, or a panic over the cut of its text. -/
theorem delayOf_cases (answer : Lookup) :
    (∃ delay, delayOf answer = .ok delay) ∨ (∃ fault, delayOf answer = .error (.failed fault)) ∨
      (delayOf answer = .error .panicked ∧
        ∃ text, answer = .value text ∧ Delay.CutsCharacter text.toList) := by
  cases answer with
  | unset => exact .inl ⟨_, rfl⟩
  | failed text => exact .inr (.inl ⟨_, rfl⟩)
  | value text =>
    simp only [delayOf]
    cases h : Delay.read text.toList with
    | accepted d => exact .inl ⟨d, rfl⟩
    | invalid => exact .inr (.inl ⟨_, rfl⟩)
    | cutInsideCharacter =>
      exact .inr (.inr ⟨rfl, text, rfl, (Delay.read_eq_cutInsideCharacter_iff _).mp h⟩)

theorem delayOf_eq_panicked_iff (answer : Lookup) :
    delayOf answer = .error .panicked ↔
      ∃ text, answer = .value text ∧ Delay.CutsCharacter text.toList := by
  constructor
  · intro h
    obtain ⟨delay, hd⟩ | ⟨fault, hf⟩ | ⟨-, ht⟩ := delayOf_cases answer
    · rw [hd] at h
      cases h
    · rw [hf] at h
      cases h
    · exact ht
  · rintro ⟨text, rfl, ht⟩
    rw [delayOf, (Delay.read_eq_cutInsideCharacter_iff _).mpr ht]

/-- Reading settings gives settings, a fault, or a panic over the cut of the text of the delay. -/
theorem result_read_cases (ask : Variable → Lookup) :
    (∃ settings, (read ask).result = .ok settings) ∨
      (∃ fault, (read ask).result = .error (.failed fault)) ∨
      ((read ask).result = .error .panicked ∧
        ∃ text, ask .delay = .value text ∧ Delay.CutsCharacter text.toList) := by
  rw [result_read]
  obtain ⟨delay, hd⟩ | ⟨fault, hd⟩ | ⟨hd, hcut⟩ := delayOf_cases (ask .delay)
  · obtain ⟨file, hf⟩ | ⟨fault, hf⟩ := fileOf_cases (ask .file)
    · exact .inl ⟨⟨delay, file⟩, by rw [hd, hf]⟩
    · exact .inr (.inl ⟨fault, by rw [hd, hf]⟩)
  · exact .inr (.inl ⟨fault, by rw [hd]⟩)
  · exact .inr (.inr ⟨by rw [hd], hcut⟩)

/-- Whatever the two variables hold, reading settings gives settings or a fault, except that a
delay text whose cut falls inside a character panics. Any other text that is no delay is told
verbatim. -/
theorem read_panics_iff_cuts_character (ask : Variable → Lookup) :
    ((read ask).result = .error .panicked ↔
      ∃ text, ask .delay = .value text ∧ Delay.CutsCharacter text.toList) ∧
    ((read ask).result ≠ .error .panicked →
      (∃ settings, (read ask).result = .ok settings) ∨
        ∃ fault, (read ask).result = .error (.failed fault)) ∧
    ∀ text, ask .delay = .value text → ¬ Delay.CutsCharacter text.toList →
      (∀ d, Delay.read text.toList ≠ .accepted d) →
      (read ask).result =
        .error (.failed (.ofText ("Invalid value '" ++ text ++ "' for FORK_PROBE_DELAY"))) := by
  refine ⟨?_, ?_, ?_⟩
  · rw [← delayOf_eq_panicked_iff, result_read]
    cases delayOf (ask .delay) with
    | error stop => simp
    | ok delay => obtain ⟨file, hf⟩ | ⟨fault, hf⟩ := fileOf_cases (ask .file) <;> simp [hf]
  · rw [result_read]
    intro hp
    obtain ⟨delay, hd⟩ | ⟨fault, hd⟩ | ⟨hd, -⟩ := delayOf_cases (ask .delay)
    · obtain ⟨file, hf⟩ | ⟨fault, hf⟩ := fileOf_cases (ask .file)
      · exact .inl ⟨⟨delay, file⟩, by rw [hd, hf]⟩
      · exact .inr ⟨fault, by rw [hd, hf]⟩
    · exact .inr ⟨fault, by rw [hd]⟩
    · exact absurd (by rw [hd]) hp
  · intro text hask hcut hno
    have hread : Delay.read text.toList = .invalid := by
      cases h : Delay.read text.toList with
      | accepted d => exact absurd h (hno d)
      | invalid => rfl
      | cutInsideCharacter => exact absurd ((Delay.read_eq_cutInsideCharacter_iff _).mp h) hcut
    have htext : "Invalid value '" ++ text ++ "' for " ++ Variable.delay.name =
        "Invalid value '" ++ text ++ "' for FORK_PROBE_DELAY" := by
      rw [String.append_assoc]
      rfl
    rw [result_read, hask, delayOf, hread, htext]

/-- One wide character behind the number is enough: the second byte of `é` is where the cut of
`1é` falls. -/
theorem read_of_wide_suffix_panics :
    (read fun
      | .delay => .value "1é"
      | .file => .unset).result = .error .panicked := by
  rfl

end Settings

end DeferredOpen
