import DeferredOpen.Delay.Reading
import DeferredOpen.Proofs.Delay.Cut
import DeferredOpen.Proofs.Delay.Suffix
import DeferredOpen.Proofs.Number.Magnitude

/-!
# The texts that are delays

A delay is spelled by a literal that ends with a digit and a suffix. The reader accepts exactly
the texts with such parts whose number is not negative, and it finds the parts: behind wider
characters the cut comes later than the last digit, but then what is left of it is no literal, or
what is right of it no suffix.
-/

namespace DeferredOpen

namespace Number

/-- A text with a digit in it is none of the words, so it is a number only as a literal. -/
theorem read?_of_digit {cs : List Char} {d : Char} (hd : d ∈ cs) (hdigit : d.isDigit = true) :
    read? cs = (Literal.read? cs).map Literal.value := by
  have hword : ∀ c ∈ ['i', 'n', 'f', 't', 'y', 'a'], c.isDigit = false := by
    intro c hc
    simp only [List.mem_cons, List.not_mem_nil, or_false] at hc
    rcases hc with rfl | rfl | rfl | rfl | rfl | rfl <;> rfl
  have hlower : d.toLower = d := by
    simp only [Char.isDigit, Bool.and_eq_true, decide_eq_true_eq] at hdigit
    refine dif_neg ?_
    intro h
    exact absurd (UInt32.le_trans h.1 hdigit.2) (by decide)
  have hmem : d ∈ (Literal.sign cs).2.map Char.toLower := by
    obtain ⟨s, hs, hcs⟩ := Literal.exists_sign cs
    rw [hcs] at hd
    obtain hd | hd := List.mem_append.mp hd
    · rw [hs.isDigit d hd] at hdigit
      cases hdigit
    · exact List.mem_map.mpr ⟨d, hd, hlower⟩
  have hne : ∀ word : String, word.toList ⊆ ['i', 'n', 'f', 't', 'y', 'a'] →
      String.ofList ((Literal.sign cs).2.map Char.toLower) ≠ word := by
    rintro word hletters rfl
    rw [String.toList_ofList] at hletters
    rw [hword d (hletters hmem)] at hdigit
    cases hdigit
  unfold read?
  cases Literal.read? cs with
  | some l => rfl
  | none =>
    simp only [Option.map_none]
    have hinf := hne "inf" (by simp)
    have hinfinity := hne "infinity" (by simp)
    have hnan := hne "nan" (by simp)
    rw [if_neg (by simp [hinf, hinfinity]), if_neg hnan]

end Number

namespace Delay

variable {cs number : List Char} {l : Literal} {s : Suffix}

/-- The parts of a delay text: the spelling of a literal that ends with a digit, and a suffix. -/
structure Parts (cs number : List Char) (l : Literal) (s : Suffix) : Prop where
  text : cs = number ++ s.letters
  literal : l.Spells number
  digit : ∃ d, number.getLast? = some d ∧ d.isDigit = true

/-- The suffix stands behind the last digit. -/
theorem Parts.lastDigit (h : Parts cs number l s) :
    ∃ before d, number = before ++ [d] ∧ LastDigit cs before d s.letters := by
  obtain ⟨d, hlast, hd⟩ := h.digit
  obtain ⟨before, rfl⟩ := List.getLast?_eq_some_iff.mp hlast
  refine ⟨before, d, rfl, ?_, hd, fun c => Suffix.isDigit_of_mem_letters⟩
  rw [h.text, List.append_assoc, List.singleton_append]

/-- A delay text is ASCII throughout. -/
theorem Parts.utf8Size (h : Parts cs number l s) : ∀ c ∈ cs, c.utf8Size = 1 := by
  intro c hc
  rw [h.text] at hc
  obtain hc | hc := List.mem_append.mp hc
  · exact h.literal.utf8Size c hc
  · exact Suffix.utf8Size_of_mem_letters hc

/-- A delay text is cut between its parts. -/
theorem Parts.split_eq (h : Parts cs number l s) : split cs = some (number, s.letters) := by
  obtain ⟨before, d, rfl, hlast⟩ := h.lastDigit
  have hzero : overhang s.letters = 0 :=
    (overhang_eq_zero_iff _).mpr fun c => Suffix.utf8Size_of_mem_letters
  rw [hlast.split_eq, hzero]
  simp [splitAtByte]

theorem Parts.measure?_eq (h : Parts cs number l s) :
    measure? number s.letters = some (l.value, s.multiplier) := by
  obtain ⟨d, hlast, hd⟩ := h.digit
  rw [measure?, Number.read?_of_digit (List.mem_of_getLast? hlast) hd,
    (Literal.read?_eq_some_iff number l).mpr h.literal,
    (multiplier?_eq_some_iff s.letters s.multiplier).mpr ⟨s, rfl, rfl⟩]
  rfl

/-- What the reader takes for the number and the multiplier of a text comes from its parts. Where
the cut is shifted it leaves a wider character on one of its sides. -/
theorem exists_parts {suffix : List Char} {x y : Binary64}
    (hsplit : split cs = some (number, suffix)) (hmeasure : measure? number suffix = some (x, y)) :
    ∃ l s, Parts cs number l s ∧ s.letters = suffix ∧ l.value = x ∧ s.multiplier = y := by
  obtain ⟨x', hx, hmeasure⟩ := Option.bind_eq_some_iff.mp hmeasure
  obtain ⟨y', hy, hxy⟩ := Option.bind_eq_some_iff.mp hmeasure
  obtain ⟨rfl, rfl⟩ := Prod.mk.inj (Option.some.inj hxy)
  obtain ⟨s, rfl, rfl⟩ := (multiplier?_eq_some_iff _ _).mp hy
  by_cases hany : cs.any Char.isDigit = true
  · obtain ⟨before, d, after, hlast⟩ := exists_lastDigit hany
    rw [hlast.split_eq] at hsplit
    obtain ⟨⟨as, bs⟩, hcut, hparts⟩ := Option.map_eq_some_iff.mp hsplit
    obtain ⟨rfl, rfl⟩ := Prod.mk.inj hparts
    rw [Number.read?_of_digit (by simp) hlast.digit] at hx
    obtain ⟨l, hl, rfl⟩ := Option.map_eq_some_iff.mp hx
    have hspells := (Literal.read?_eq_some_iff _ _).mp hl
    obtain ⟨hafter, hwidth⟩ := append_of_splitAtByte hcut
    have hascii : ∀ c ∈ after, c.utf8Size = 1 := by
      intro c hc
      rw [← hafter] at hc
      obtain hc | hc := List.mem_append.mp hc
      · exact hspells.utf8Size c (by simp [hc])
      · exact Suffix.utf8Size_of_mem_letters hc
    have has : as = [] := by
      have hle := length_le_width as
      rw [hwidth, (overhang_eq_zero_iff after).mpr hascii] at hle
      exact List.length_eq_zero_iff.mp (by omega)
    subst has
    refine ⟨l, s, ⟨?_, hspells, d, by simp, hlast.digit⟩, rfl, rfl, rfl⟩
    rw [hlast.text, ← hafter]
    simp
  · have hcut : cut cs = 0 := by rw [cut, if_neg hany]
    rw [split, hcut] at hsplit
    have hnil : number = [] := by
      cases cs <;> exact (Prod.mk.inj (Option.some.inj hsplit)).1.symm
    rw [hnil] at hx
    cases hx

theorem Parts.unique {number' : List Char} {l' : Literal} {s' : Suffix}
    (h : Parts cs number l s) (h' : Parts cs number' l' s') : number' = number ∧ l' = l ∧ s' = s := by
  obtain ⟨hnumber, hletters⟩ := Prod.mk.inj (Option.some.inj (h'.split_eq.symm.trans h.split_eq))
  subst hnumber
  have hl := (Literal.read?_eq_some_iff number' l).mpr h.literal
  have hl' := (Literal.read?_eq_some_iff number' l').mpr h'.literal
  exact ⟨rfl, Option.some.inj (hl'.symm.trans hl), Suffix.letters_injective hletters⟩

/-- The last character of a delay text is a digit or a letter of its suffix. -/
theorem Parts.getLast? (h : Parts cs number l s) {c : Char} (hc : cs.getLast? = some c) :
    c ∉ ['.', 'e', 'E'] := by
  rw [h.text, List.getLast?_append, Option.or_eq_some_iff] at hc
  obtain hc | ⟨-, hc⟩ := hc
  · have hletter := Suffix.mem_letters (List.mem_of_getLast? hc)
    simp only [List.mem_cons, List.not_mem_nil, or_false] at hletter
    rcases hletter with rfl | rfl | rfl | rfl | rfl | rfl <;> simp
  · obtain ⟨d, hlast, hd⟩ := h.digit
    obtain rfl := Option.some.inj (hc.symm.trans hlast)
    intro hmark
    simp only [List.mem_cons, List.not_mem_nil, or_false] at hmark
    rcases hmark with rfl | rfl | rfl <;> cases hd

/-- A text is accepted exactly when it has parts whose number is not negative. -/
theorem read_eq_accepted_iff (cs : List Char) (d : Duration) :
    read cs = .accepted d ↔ ∃ number l s, Parts cs number l s ∧ l.value.isNonneg = true ∧
      d = .ofMicroseconds (microseconds l.value s.multiplier) := by
  constructor
  · intro h
    unfold read at h
    split at h
    · cases h
    · next hsplit =>
      split at h
      · next hmeasure =>
        split at h
        · next hnonneg =>
          obtain ⟨l, s, hparts, rfl, rfl, rfl⟩ := exists_parts hsplit hmeasure
          exact ⟨_, l, s, hparts, hnonneg, (Reading.accepted.inj h).symm⟩
        · cases h
      · cases h
  · rintro ⟨number, l, s, hparts, hnonneg, rfl⟩
    simp only [read, hparts.split_eq, hparts.measure?_eq, hnonneg, if_true]

end Delay

end DeferredOpen
