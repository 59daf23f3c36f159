import DeferredOpen.Number.Literal

/-!
# The grammar of literals

`Literal.Spells` says how a literal is written: an optional sign, digits with at most one point
and at least one digit beside it, and an optional exponent. Reading a text gives a literal exactly
when the text is a spelling of it.
-/

namespace DeferredOpen.Literal

/-- How a sign is written. A plus may be left out. -/
inductive Sign : Bool → List Char → Prop where
  | bare : Sign false []
  | plus : Sign false ['+']
  | minus : Sign true ['-']

def IsDigits (ds : List Char) : Prop := ∀ c ∈ ds, c.isDigit = true

inductive Mantissa (whole fraction : List Char) : List Char → Prop where
  | plain : IsDigits whole → whole ≠ [] → fraction = [] → Mantissa whole fraction whole
  | divided : IsDigits whole → IsDigits fraction → whole ≠ [] ∨ fraction ≠ [] →
      Mantissa whole fraction (whole ++ '.' :: fraction)

/-- How an exponent is written. Zero may be left out. -/
inductive Exponent : Int → List Char → Prop where
  | bare : Exponent 0 []
  | marked {mark negative sign ds} : mark = 'e' ∨ mark = 'E' → Sign negative sign →
      IsDigits ds → ds ≠ [] →
      Exponent (if negative then -(digitsValue ds : Int) else digitsValue ds)
        (mark :: (sign ++ ds))

inductive Spells (l : Literal) : List Char → Prop where
  | parts {sign mantissa exponent} : Sign l.negative sign → Mantissa l.whole l.fraction mantissa →
      Exponent l.exponent exponent → Spells l (sign ++ (mantissa ++ exponent))

/-! Signs and runs of digits: what is read is what is written. -/

theorem exists_sign (cs : List Char) : ∃ s, Sign (sign cs).1 s ∧ cs = s ++ (sign cs).2 := by
  unfold sign
  split
  · exact ⟨_, .minus, rfl⟩
  · exact ⟨_, .plus, rfl⟩
  · exact ⟨_, .bare, rfl⟩

theorem sign_append {negative : Bool} {s rest : List Char} (h : Sign negative s)
    (hminus : rest.head? ≠ some '-') (hplus : rest.head? ≠ some '+') :
    sign (s ++ rest) = (negative, rest) := by
  cases h with
  | minus => rfl
  | plus => rfl
  | bare =>
    rw [List.nil_append]
    unfold sign
    split
    · exact absurd rfl hminus
    · exact absurd rfl hplus
    · rfl

theorem Sign.isDigit {negative : Bool} {s : List Char} (h : Sign negative s) :
    ∀ c ∈ s, c.isDigit = false := by
  cases h <;> simp

theorem isDigits_digits (cs : List Char) : IsDigits (digits cs).1 := by
  intro c hc
  exact List.all_eq_true.mp List.all_takeWhile c hc

theorem digits_append_of {ds rest : List Char} (h : IsDigits ds)
    (hrest : ∀ c, rest.head? = some c → c.isDigit = false) :
    digits (ds ++ rest) = (ds, rest) := by
  rw [digits, List.takeWhile_append_of_pos h, List.dropWhile_append_of_pos h]
  cases rest with
  | nil => simp
  | cons c rest =>
    have hc := hrest c rfl
    rw [List.takeWhile_cons_of_neg (by simp [hc]), List.dropWhile_cons_of_neg (by simp [hc]),
      List.append_nil]

theorem IsDigits.head?_ne {ds : List Char} (h : IsDigits ds) {c : Char}
    (hc : c.isDigit = false) : ds.head? ≠ some c := by
  intro heq
  have hmem := List.mem_of_mem_head? heq
  rw [h c hmem] at hc
  cases hc

/-! Exponents. -/

theorem exponent?_eq_some_iff (cs : List Char) (e : Int) :
    exponent? cs = some e ↔ Exponent e cs := by
  constructor
  · intro h
    cases cs with
    | nil =>
      obtain rfl := Option.some.inj h
      exact .bare
    | cons mark rest =>
      simp only [exponent?] at h
      split at h
      · next hmark =>
        split at h
        · next hbody =>
          obtain ⟨s, hs, hrest⟩ := exists_sign rest
          obtain rfl := Option.some.inj h
          conv => arg 2; rw [hrest]
          exact .marked hmark hs (by simpa [IsDigits] using hbody.2) hbody.1
        · cases h
      · cases h
  · intro h
    cases h with
    | bare => rfl
    | @marked mark negative s ds hmark hs hds hne =>
      have hsign : sign (s ++ ds) = (negative, ds) :=
        sign_append hs (hds.head?_ne rfl) (hds.head?_ne rfl)
      have hall : ds.all Char.isDigit = true := List.all_eq_true.mpr hds
      simp only [exponent?, if_pos hmark, hsign]
      rw [if_pos ⟨hne, hall⟩]

theorem Exponent.head {e : Int} {cs : List Char} (h : Exponent e cs) {c : Char}
    (hc : cs.head? = some c) : c = 'e' ∨ c = 'E' := by
  cases h with
  | bare => cases hc
  | marked hmark => exact Option.some.inj hc ▸ hmark

/-! Whole literals. -/

theorem pointed_append {ds rest : List Char} (h : IsDigits ds)
    (hrest : ∀ c, rest.head? = some c → c.isDigit = false) :
    pointed ('.' :: (ds ++ rest)) = (ds, rest) := digits_append_of h hrest

theorem pointed_of_head_ne {cs : List Char} (h : cs.head? ≠ some '.') : pointed cs = ([], cs) := by
  unfold pointed
  split
  · exact absurd rfl h
  · rfl

/-- The digits of a mantissa are read back, and what follows them is left. -/
theorem Mantissa.read {whole fraction m rest : List Char} (h : Mantissa whole fraction m)
    (hdigit : ∀ c, rest.head? = some c → c.isDigit = false) (hpoint : rest.head? ≠ some '.') :
    (digits (m ++ rest)).1 = whole ∧ pointed (digits (m ++ rest)).2 = (fraction, rest) := by
  cases h with
  | plain hwhole _ hfraction =>
    rw [digits_append_of hwhole hdigit, hfraction]
    exact ⟨rfl, pointed_of_head_ne hpoint⟩
  | divided hwhole hfraction _ =>
    have hstop : ∀ c, ('.' :: (fraction ++ rest)).head? = some c → c.isDigit = false := by
      intro c hc
      obtain rfl := Option.some.inj hc
      rfl
    rw [List.append_assoc, List.cons_append, digits_append_of hwhole hstop]
    exact ⟨rfl, pointed_append hfraction hdigit⟩

theorem Mantissa.ne_nil {whole fraction m : List Char} (h : Mantissa whole fraction m) :
    ¬(whole = [] ∧ fraction = []) := by
  cases h with
  | plain _ hne _ => exact fun h => hne h.1
  | divided _ _ hne => exact fun h => hne.elim (· h.1) (· h.2)

/-- A mantissa starts with a digit or the point, so its sign cannot be read out of it. -/
theorem Mantissa.head {whole fraction m : List Char} (h : Mantissa whole fraction m)
    (rest : List Char) {c : Char} (hc : c.isDigit = false) (hp : c ≠ '.') :
    (m ++ rest).head? ≠ some c := by
  have hrun : ∀ tail, IsDigits whole → whole ≠ [] → (whole ++ tail).head? ≠ some c := by
    intro tail hds hne
    obtain ⟨d, ds, rfl⟩ := List.exists_cons_of_ne_nil hne
    exact hds.head?_ne hc
  cases h with
  | plain hwhole hne _ => exact hrun rest hwhole hne
  | divided hwhole _ _ =>
    rw [List.append_assoc]
    by_cases hne : whole = []
    · rw [hne]
      simpa using hp.symm
    · exact hrun _ hwhole hne

/-- What the reader takes for a mantissa is one. -/
theorem exists_mantissa (cs : List Char)
    (h : ¬((digits cs).1 = [] ∧ (pointed (digits cs).2).1 = [])) :
    ∃ m, Mantissa (digits cs).1 (pointed (digits cs).2).1 m ∧
      cs = m ++ (pointed (digits cs).2).2 := by
  have hcs := digits_append cs
  by_cases hp : (digits cs).2.head? = some '.'
  · obtain ⟨rest, hrest⟩ := List.head?_eq_some_iff.mp hp
    have hpointed : pointed (digits cs).2 = digits rest := by rw [hrest]; rfl
    rw [hpointed] at h ⊢
    refine ⟨_, .divided (isDigits_digits cs) (isDigits_digits rest) ?_, ?_⟩
    · by_cases hw : (digits cs).1 = []
      · exact .inr fun hf => h ⟨hw, hf⟩
      · exact .inl hw
    · rw [List.append_assoc, List.cons_append, digits_append, ← hrest, hcs]
  · rw [pointed_of_head_ne hp] at h ⊢
    exact ⟨_, .plain (isDigits_digits cs) (fun hw => h ⟨hw, rfl⟩) rfl, hcs.symm⟩

/-- A text is read as a literal exactly when it spells it. -/
theorem read?_eq_some_iff (cs : List Char) (l : Literal) : read? cs = some l ↔ l.Spells cs := by
  constructor
  · intro h
    obtain ⟨s, hs, hcs⟩ := exists_sign cs
    simp only [read?] at h
    split at h
    · cases h
    · next hne =>
      obtain ⟨e, he, rfl⟩ := Option.map_eq_some_iff.mp h
      obtain ⟨m, hm, hunsigned⟩ := exists_mantissa (sign cs).2 hne
      have hspells : Spells ⟨(sign cs).1, _, _, e⟩ (s ++ (m ++ _)) :=
        .parts hs hm ((exponent?_eq_some_iff _ _).mp he)
      rwa [← hunsigned, ← hcs] at hspells
  · rintro ⟨hs, hm, he⟩
    rename_i s m e
    have hdigit : ∀ c, e.head? = some c → c.isDigit = false := by
      intro c hc
      obtain rfl | rfl := he.head hc <;> rfl
    have hpoint : e.head? ≠ some '.' := by
      intro hc
      obtain h | h := he.head hc <;> cases h
    have hsign := sign_append hs (hm.head e (by decide) (by decide))
      (hm.head e (by decide) (by decide))
    obtain ⟨hwhole, hfraction⟩ := hm.read hdigit hpoint
    simp only [read?, hsign, hwhole, hfraction]
    rw [if_neg hm.ne_nil, (exponent?_eq_some_iff e l.exponent).mpr he]
    rfl

/-! The characters of a literal. -/

def marks : List Char := ['+', '-', '.', 'e', 'E']

theorem Sign.mem_marks {negative : Bool} {s : List Char} (h : Sign negative s) :
    ∀ c ∈ s, c ∈ marks := by
  cases h <;> simp [marks]

theorem Mantissa.digit_or_mark {whole fraction m : List Char} (h : Mantissa whole fraction m) :
    ∀ c ∈ m, c.isDigit = true ∨ c ∈ marks := by
  cases h with
  | plain hwhole _ _ => exact fun c hc => .inl (hwhole c hc)
  | divided hwhole hfraction _ =>
    intro c hc
    obtain hc | hc := List.mem_append.mp hc
    · exact .inl (hwhole c hc)
    · obtain rfl | hc := List.mem_cons.mp hc
      · exact .inr (by decide)
      · exact .inl (hfraction c hc)

theorem Exponent.digit_or_mark {e : Int} {cs : List Char} (h : Exponent e cs) :
    ∀ c ∈ cs, c.isDigit = true ∨ c ∈ marks := by
  cases h with
  | bare => simp
  | marked hmark hs hds _ =>
    intro c hc
    obtain rfl | hc := List.mem_cons.mp hc
    · refine .inr ?_
      obtain rfl | rfl := hmark <;> decide
    · obtain hc | hc := List.mem_append.mp hc
      · exact .inr (hs.mem_marks c hc)
      · exact .inl (hds c hc)

theorem Spells.digit_or_mark {l : Literal} {cs : List Char} (h : l.Spells cs) :
    ∀ c ∈ cs, c.isDigit = true ∨ c ∈ marks := by
  obtain ⟨hs, hm, he⟩ := h
  intro c hc
  obtain hc | hc := List.mem_append.mp hc
  · exact .inr (hs.mem_marks c hc)
  · obtain hc | hc := List.mem_append.mp hc
    · exact hm.digit_or_mark c hc
    · exact he.digit_or_mark c hc

theorem utf8Size_of_isDigit {c : Char} (h : c.isDigit = true) : c.utf8Size = 1 := by
  rw [Char.utf8Size_eq_one_iff]
  simp only [Char.isDigit, Bool.and_eq_true, decide_eq_true_eq] at h
  exact UInt32.le_trans h.2 (by decide)

/-- Every character of a literal is ASCII. -/
theorem Spells.utf8Size {l : Literal} {cs : List Char} (h : l.Spells cs) :
    ∀ c ∈ cs, c.utf8Size = 1 := by
  intro c hc
  obtain hdigit | hmark := h.digit_or_mark c hc
  · exact utf8Size_of_isDigit hdigit
  · simp only [marks, List.mem_cons, List.not_mem_nil, or_false] at hmark
    rcases hmark with rfl | rfl | rfl | rfl | rfl <;> decide

end DeferredOpen.Literal
