import DeferredOpen.Proofs.Delay.Cut
import DeferredOpen.Text.Utf8

/-!
# What a delay text is split into

The number of a delay text is meant to be its longest start that ends in a digit. Behind an ASCII
suffix the split gives just that. Otherwise the cut comes later, by as many bytes as the suffix is
wider than it has characters, and there is no split where these end inside a character.
-/

namespace DeferredOpen.Delay

variable {cs before after number : List Char} {d : Char}

/-- A place in a text, counted in bytes, where a character has begun and not ended. -/
def InsideCharacter (place : Nat) (cs : List Char) : Prop :=
  ∃ as c bs, cs = as ++ c :: bs ∧ width as < place ∧ place < width (as ++ [c])

def EndsInDigit (cs : List Char) : Prop := ∃ as d, cs = as ++ [d] ∧ d.isDigit = true

/-- The longest start of a text that ends in a digit. -/
structure Numeral (cs number : List Char) : Prop where
  isPrefix : number <+: cs
  ends : EndsInDigit number
  longest : ∀ other, other <+: cs → EndsInDigit other → other <+: number

/-- Cutting off no more bytes than there are fails just inside the characters. -/
theorem splitAtByte_eq_none_iff_inside {n : Nat} (h : n ≤ width cs) :
    splitAtByte n cs = none ↔ InsideCharacter n cs := by
  fun_induction splitAtByte n cs with
  | case1 cs => simp [InsideCharacter]
  | case2 n => simp at h
  | case3 n c cs hle ih =>
    have hrest : n + 1 - c.utf8Size ≤ width cs := by
      rw [width_cons] at h
      omega
    rw [Option.map_eq_none_iff, ih hrest]
    constructor
    · rintro ⟨as, x, bs, rfl, hbegun, hended⟩
      refine ⟨c :: as, x, bs, rfl, ?_, ?_⟩
      · rw [width_cons]
        omega
      · rw [List.cons_append, width_cons]
        omega
    · rintro ⟨as, x, bs, htext, hbegun, hended⟩
      cases as with
      | nil =>
        obtain ⟨rfl, -⟩ := List.cons.inj htext
        simp at hended
        omega
      | cons a as =>
        obtain ⟨rfl, rfl⟩ := List.cons.inj htext
        rw [List.cons_append, width_cons] at hended
        rw [width_cons] at hbegun
        exact ⟨as, x, bs, rfl, by omega, by omega⟩
  | case4 n c cs hlong =>
    simp only [true_iff]
    exact ⟨[], c, cs, rfl, by simp, by simpa using hlong⟩

theorem cut_le_width (cs : List Char) : cut cs ≤ width cs := by
  unfold cut
  split <;> omega

/-- A text is split unless its cut lies inside a character. -/
theorem split_eq_none_iff_inside (cs : List Char) :
    split cs = none ↔ InsideCharacter (cut cs) cs :=
  splitAtByte_eq_none_iff_inside (cut_le_width cs)

theorem split_of_no_digit (h : ∀ c ∈ cs, c.isDigit = false) : split cs = some ([], cs) := by
  have hcut : cut cs = 0 := by
    rw [cut, if_neg]
    simpa using h
  rw [split, hcut]
  cases cs <;> rfl

/-- Up to its last digit a text is its numeral. -/
theorem LastDigit.numeral (h : LastDigit cs before d after) : Numeral cs (before ++ [d]) where
  isPrefix := ⟨after, by rw [h.text, List.append_assoc, List.singleton_append]⟩
  ends := ⟨before, d, rfl, h.digit⟩
  longest := by
    rintro other ⟨rest, hrest⟩ ⟨as, x, rfl, hx⟩
    have hnot : x ∉ after := by
      intro hin
      rw [h.rest x hin] at hx
      cases hx
    rw [h.text, List.append_cons before, List.append_assoc] at hrest
    rcases List.append_eq_append_iff.mp hrest with ⟨r, hnumeral, htail⟩ | ⟨r, -, hafter⟩
    · cases r with
      | nil =>
        have hafter : x :: rest = after := htail
        exact absurd (by simp [← hafter]) hnot
      | cons y r =>
        obtain ⟨rfl, -⟩ := List.cons.inj htail
        exact ⟨r, by rw [hnumeral, List.append_assoc, List.singleton_append]⟩
    · exact absurd (by simp [hafter]) hnot

/-- A text whose rest is ASCII is split behind its last digit. -/
theorem LastDigit.split_of_ascii (h : LastDigit cs before d after)
    (hascii : ∀ c ∈ after, c.val ≤ 127) : split cs = some (before ++ [d], after) := by
  have hnone : overhang after = 0 :=
    (overhang_eq_zero_iff after).mpr fun c hc => Char.utf8Size_eq_one_iff.mpr (hascii c hc)
  rw [h.split_eq, hnone]
  cases after <;> rfl

/-- The bytes of a text are as many as it is wide. -/
theorem length_encode (cs : List Char) : (Utf8.encode (String.ofList cs)).length = width cs := by
  rw [Utf8.encode, String.toList_ofList]
  induction cs with
  | nil => rfl
  | cons c cs ih =>
    rw [List.flatMap_cons, List.length_append, String.length_utf8EncodeChar, ih, width_cons]

/-- A split gives the bytes before the cut and those behind it. -/
theorem encode_of_split {suffix : List Char} (h : split cs = some (number, suffix)) :
    Utf8.encode (String.ofList number) = (Utf8.encode (String.ofList cs)).take (cut cs) ∧
      Utf8.encode (String.ofList suffix) = (Utf8.encode (String.ofList cs)).drop (cut cs) := by
  obtain ⟨rfl, hwidth⟩ := append_of_splitAtByte h
  have hlength : (Utf8.encode (String.ofList number)).length = cut (number ++ suffix) := by
    rw [length_encode, hwidth]
  have happend : Utf8.encode (String.ofList (number ++ suffix)) =
      Utf8.encode (String.ofList number) ++ Utf8.encode (String.ofList suffix) := by
    simp [Utf8.encode]
  rw [happend, ← hlength]
  exact ⟨List.take_left.symm, List.drop_left.symm⟩

/-- Whatever a text is split into, the parts make it up again. A text without a digit is all suffix.
In a text with one, the cut lies behind the longest start that ends in a digit, by as many bytes as
the rest has more than characters. It takes that many bytes off the text, and there is no split just
if they end inside a character; behind an ASCII rest they end with the digit. -/
theorem split_behind_numeral (cs : List Char) :
    (∀ number suffix, split cs = some (number, suffix) → number ++ suffix = cs) ∧
    ((∀ c ∈ cs, c.isDigit = false) → split cs = some ([], cs)) ∧
    ((∃ c ∈ cs, c.isDigit = true) →
      ∃ numeral rest, cs = numeral ++ rest ∧ Numeral cs numeral ∧ (∀ c ∈ rest, c.isDigit = false) ∧
        ((∀ c ∈ rest, c.val ≤ 127) → split cs = some (numeral, rest)) ∧
        let bytes (as : List Char) := Utf8.encode (String.ofList as)
        let place := (bytes numeral).length + ((bytes rest).length - rest.length)
        cut cs = place ∧
        (∀ number suffix, split cs = some (number, suffix) →
          bytes number = (bytes cs).take place ∧ bytes suffix = (bytes cs).drop place) ∧
        (split cs = none ↔ InsideCharacter place cs)) := by
  refine ⟨fun number suffix h => (append_of_splitAtByte h).1, split_of_no_digit, ?_⟩
  rintro ⟨c, hc, hdigit⟩
  obtain ⟨before, d, after, h⟩ := exists_lastDigit (List.any_eq_true.mpr ⟨c, hc, hdigit⟩)
  have hcut : cut cs = (Utf8.encode (String.ofList (before ++ [d]))).length +
      ((Utf8.encode (String.ofList after)).length - after.length) := by
    rw [h.cut_eq, length_encode, length_encode, overhang]
  refine ⟨before ++ [d], after, ?_, h.numeral, h.rest, h.split_of_ascii, hcut, ?_, ?_⟩
  · rw [h.text, List.append_cons]
  · intro number suffix hsplit
    rw [← hcut]
    exact encode_of_split hsplit
  · rw [← hcut]
    exact split_eq_none_iff_inside cs

/-- The cut of `1.5µs` lies a byte behind the digit, between the two bytes of the micro sign. -/
theorem split_behind_numeral_of_micro_sign :
    let cs := "1.5µs".toList
    (∃ c ∈ cs, c.isDigit = true) ∧ cut cs = 4 ∧ split cs = none ∧ InsideCharacter 4 cs := by
  intro cs
  have hdigit : ∃ c ∈ cs, c.isDigit = true := ⟨'5', by decide, by decide⟩
  have hfour : cut cs = 4 := by decide
  have hnone : split cs = none := by decide
  obtain ⟨numeral, rest, -, -, -, -, hcut, -, hinside⟩ := (split_behind_numeral cs).2.2 hdigit
  rw [← hcut, hfour] at hinside
  exact ⟨hdigit, hfour, hnone, hinside.mp hnone⟩

/-- A cut between two characters leaves the first of them with the number. -/
example : split "2éé".toList = some ("2é".toList, "é".toList) := by decide

end DeferredOpen.Delay
