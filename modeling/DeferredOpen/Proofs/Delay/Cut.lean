import DeferredOpen.Delay.Split

/-!
# Where a delay text is cut

The cut of a delay text counts bytes, and the search for its place counts characters. With the
text taken apart at its last digit the two measures meet: the cut lies behind that digit by as
many bytes as the rest is wider than it has characters. A text can be split exactly when a
character of the rest ends there.
-/

namespace DeferredOpen.Delay

variable {cs before after : List Char} {d : Char}

/-- A text taken apart at its last digit. -/
structure LastDigit (cs before : List Char) (d : Char) (after : List Char) : Prop where
  text : cs = before ++ d :: after
  digit : d.isDigit = true
  rest : ∀ c ∈ after, c.isDigit = false

/-- How many bytes a text has more than characters. -/
def overhang (cs : List Char) : Nat := width cs - cs.length

/-- The cut of a text falls between the bytes of one character. -/
def CutsCharacter (cs : List Char) : Prop :=
  ∃ before d after, LastDigit cs before d after ∧
    ∀ as bs, after = as ++ bs → width as ≠ overhang after

theorem length_le_width (cs : List Char) : cs.length ≤ width cs := by
  induction cs with
  | nil => simp
  | cons c cs ih =>
    have := c.utf8Size_pos
    simp only [List.length_cons, width_cons]
    omega

/-- An ASCII text has one byte for each character, and no other text has. -/
theorem overhang_eq_zero_iff (cs : List Char) :
    overhang cs = 0 ↔ ∀ c ∈ cs, c.utf8Size = 1 := by
  induction cs with
  | nil => simp [overhang]
  | cons c cs ih =>
    have hc := c.utf8Size_pos
    have hw := length_le_width cs
    simp only [overhang, width_cons, List.length_cons, List.forall_mem_cons] at ih ⊢
    rw [← ih]
    omega

theorem LastDigit.any (h : LastDigit cs before d after) : cs.any Char.isDigit = true := by
  rw [h.text, List.any_eq_true]
  exact ⟨d, by simp, h.digit⟩

theorem LastDigit.afterLastDigit_eq (h : LastDigit cs before d after) :
    afterLastDigit cs = after := by
  have hrest : ∀ c ∈ after.reverse, (!c.isDigit) = true := by
    intro c hc
    simp [h.rest c (List.mem_reverse.mp hc)]
  rw [afterLastDigit, h.text, List.reverse_append, List.reverse_cons, List.append_assoc,
    List.takeWhile_append_of_pos hrest, List.singleton_append,
    List.takeWhile_cons_of_neg (by simp [h.digit]), List.append_nil, List.reverse_reverse]

/-- A text with a digit has a last one. -/
theorem exists_lastDigit (h : cs.any Char.isDigit = true) :
    ∃ before d after, LastDigit cs before d after := by
  induction cs with
  | nil => simp at h
  | cons c cs ih =>
    by_cases hcs : cs.any Char.isDigit = true
    · obtain ⟨before, d, after, hd⟩ := ih hcs
      exact ⟨c :: before, d, after, by rw [hd.text]; rfl, hd.digit, hd.rest⟩
    · have hc : c.isDigit = true := by simpa [hcs] using h
      refine ⟨[], c, cs, rfl, hc, ?_⟩
      intro x hx
      simpa using fun hxd => hcs (List.any_eq_true.mpr ⟨x, hx, hxd⟩)

theorem LastDigit.unique {before' after' : List Char} {d' : Char}
    (h : LastDigit cs before d after) (h' : LastDigit cs before' d' after') :
    before = before' ∧ d = d' ∧ after = after' := by
  have hafter : after = after' := h.afterLastDigit_eq.symm.trans h'.afterLastDigit_eq
  subst hafter
  have htext := h.text.symm.trans h'.text
  rw [List.append_cons, List.append_cons before'] at htext
  obtain ⟨hb, hd⟩ := List.append_inj' (List.append_cancel_right htext) rfl
  exact ⟨hb, by simpa using hd, rfl⟩

/-- The cut lies behind the last digit by the overhang of the rest. -/
theorem LastDigit.cut_eq (h : LastDigit cs before d after) :
    cut cs = width (before ++ [d]) + overhang after := by
  have hle := length_le_width after
  rw [cut, if_pos h.any, h.afterLastDigit_eq, h.text, List.append_cons, width_append, overhang]
  omega

theorem splitAtByte_width_add (as cs : List Char) (n : Nat) :
    splitAtByte (width as + n) (as ++ cs) =
      (splitAtByte n cs).map fun s => (as ++ s.1, s.2) := by
  induction as with
  | nil => simp
  | cons a as ih =>
    have hpos := a.utf8Size_pos
    obtain ⟨m, hm⟩ : ∃ m, width (a :: as) + n = m + 1 :=
      ⟨width (a :: as) + n - 1, by simp only [width_cons]; omega⟩
    have hle : a.utf8Size ≤ m + 1 := by rw [← hm, width_cons]; omega
    have hsub : m + 1 - a.utf8Size = width as + n := by rw [← hm, width_cons]; omega
    rw [hm, List.cons_append, splitAtByte, if_pos hle, hsub, ih]
    cases splitAtByte n cs <;> rfl

/-- Bytes can be cut off a text exactly where a character ends. -/
theorem splitAtByte_eq_none_iff (n : Nat) (cs : List Char) :
    splitAtByte n cs = none ↔ ∀ as bs, cs = as ++ bs → width as ≠ n := by
  constructor
  · intro h as bs hcs hw
    rw [hcs, ← hw, splitAtByte_width_append] at h
    cases h
  · intro h
    cases hs : splitAtByte n cs with
    | none => rfl
    | some s =>
      obtain ⟨happ, hw⟩ := append_of_splitAtByte hs
      exact absurd hw (h s.1 s.2 happ.symm)

/-- Behind its last digit a text is split by its overhang. -/
theorem LastDigit.split_eq (h : LastDigit cs before d after) :
    split cs = (splitAtByte (overhang after) after).map fun s => (before ++ d :: s.1, s.2) := by
  have htext : cs = (before ++ [d]) ++ after := by rw [h.text, List.append_cons]
  rw [split, h.cut_eq, htext, splitAtByte_width_add]
  simp

theorem split_eq_none_iff (cs : List Char) : split cs = none ↔ CutsCharacter cs := by
  by_cases hany : cs.any Char.isDigit = true
  · obtain ⟨before, d, after, h⟩ := exists_lastDigit hany
    rw [h.split_eq, Option.map_eq_none_iff, splitAtByte_eq_none_iff]
    constructor
    · intro hno
      exact ⟨before, d, after, h, hno⟩
    · rintro ⟨before', d', after', h', hno⟩
      obtain ⟨-, -, rfl⟩ := h.unique h'
      exact hno
  · have hcut : cut cs = 0 := by rw [cut, if_neg hany]
    have hsplit : split cs = some ([], cs) := by
      rw [split, hcut]
      cases cs <;> rfl
    rw [hsplit]
    constructor
    · intro h
      cases h
    · rintro ⟨before, d, after, h, -⟩
      exact absurd h.any hany

end DeferredOpen.Delay
