import DeferredOpen.Proofs.Delay.Microseconds

/-!
# The order of delays

Among texts with the same suffix a greater number does not make a shorter delay. Every step of the
reader keeps the order: rounding the literal, each product, and cutting off the fraction; and where
a count has become so large that it is infinite, the delay is the longest one. No step makes
something that is no number, which would count as zero.
-/

namespace DeferredOpen.Delay

open Binary64 (one IsNearest)

variable {cs cs' number number' suffix : List Char} {l l' : Literal} {s : Suffix}
  {d d' : Duration}

theorem ofMicroseconds_mono {n n' : Nat} (h : n ≤ n') :
    (Duration.ofMicroseconds n).nanos ≤ (Duration.ofMicroseconds n').nanos :=
  Nat.mul_le_mul_right Duration.perMicrosecond h

theorem LastDigit.append {before after : List Char} {e : Char} (h : LastDigit cs before e after)
    (hsuffix : ∀ c ∈ suffix, c.isDigit = false) :
    LastDigit (cs ++ suffix) before e (after ++ suffix) := by
  refine ⟨?_, h.digit, ?_⟩
  · rw [h.text, List.append_assoc, List.cons_append]
  · intro c hc
    exact (List.mem_append.mp hc).elim (h.rest c) (hsuffix c)

theorem Suffix.not_mem_marks {c : Char} (h : c ∈ s.letters) : c ∉ Literal.marks := by
  have hletter := Suffix.mem_letters h
  simp only [List.mem_cons, List.not_mem_nil, or_false] at hletter
  rcases hletter with rfl | rfl | rfl | rfl | rfl | rfl <;> decide

/-- A literal before a text without digits is the number of the whole, if this has parts: what
follows the last digit of a literal cannot stand in a suffix. -/
theorem Parts.eq_of_spells {before : List Char} (h : Parts (before ++ suffix) number l s)
    (hbefore : l'.Spells before) (hsuffix : ∀ c ∈ suffix, c.isDigit = false) :
    l = l' ∧ s.letters = suffix := by
  obtain ⟨front, e, rfl, hlast⟩ := h.lastDigit
  have hany : before.any Char.isDigit = true := by
    obtain ⟨c, hc, hdigit⟩ := List.any_eq_true.mp hlast.any
    obtain hc | hc := List.mem_append.mp hc
    · exact List.any_eq_true.mpr ⟨c, hc, hdigit⟩
    · exact absurd hdigit (by simp [hsuffix c hc])
  obtain ⟨front', e', after, hown⟩ := exists_lastDigit hany
  obtain ⟨rfl, rfl, hletters⟩ := hlast.unique (hown.append hsuffix)
  have hafter : after = [] := by
    refine List.eq_nil_iff_forall_not_mem.mpr ?_
    intro c hc
    have hletter : c ∈ s.letters := hletters ▸ List.mem_append_left suffix hc
    have hmem : c ∈ before := by
      rw [hown.text]
      simp [hc]
    refine Suffix.not_mem_marks hletter ((hbefore.digit_or_mark c hmem).resolve_left ?_)
    simp [hown.rest c hc]
  rw [hafter] at hown hletters
  have hl := (Literal.read?_eq_some_iff _ l).mpr h.literal
  have hl' := (Literal.read?_eq_some_iff before l').mpr hbefore
  rw [hown.text] at hl'
  exact ⟨Option.some.inj (hl.symm.trans hl'), hletters⟩

/-- With the same suffix the delays are in the order of the numbers. A number with a minus sign has
a delay of zero, and among the others the counts are in order. -/
theorem Parts.nanos_le (h : Parts cs number l s) (h' : Parts cs' number' l' s)
    (hread : read cs = .accepted d) (hread' : read cs' = .accepted d')
    (hle : l.number ≤ l'.number) : d.nanos ≤ d'.nanos := by
  by_cases hnegative : l.negative = true
  · rw [h.eq_zero_of_negative hread hnegative, Duration.ofMicroseconds, Nat.zero_mul]
    exact Nat.zero_le _
  · rw [l.number_of_not_negative (Bool.eq_false_iff.mpr hnegative)] at hle
    rw [Literal.number_eq_magnitude (l.magnitude_nonneg.trans hle)] at hle
    obtain ⟨c, hc⟩ := s.exists_counts
    obtain ⟨u, hu, -, -, rfl⟩ := h.exists_units hc hread
    obtain ⟨u', hu', -, -, rfl⟩ := h'.exists_units hc hread'
    have hunits : u ≤ u' := hu.mono hu' (mul_le_mul_of_nonneg_right hle (Nat.cast_nonneg one))
    have hwhole : millionfold u c / one ≤ millionfold u' c / one :=
      Nat.div_le_div_right (millionfold_mono c hunits)
    exact ofMicroseconds_mono (min_le_min_right _ hwhole)

/-- What an accepted text is multiplied to is a number, finite or infinite. -/
theorem Parts.product_ne_nan (h : Parts cs number l s) (hread : read cs = .accepted d) :
    l.value * s.multiplier * .ofDecimal false 1000000 0 ≠ .nan := by
  obtain ⟨c, hc⟩ := s.exists_counts
  obtain ⟨u, -, hstands, -, -⟩ := h.exists_units hc hread
  exact (hc.standsFor_millionfold hstands).ne_nan

/-- What an accepted text is multiplied to before the whole microseconds are taken is a number; and
behind a literal that spells a greater number, whatever it looks like, the same suffix does not make
a shorter delay. -/
theorem read_keeps_order {cs : List Char} {d : Duration} (h : read cs = .accepted d) :
    (∃ number suffix v m, split cs = some (number, suffix) ∧
      measure? number suffix = some (v, m) ∧ v * m * .ofDecimal false 1000000 0 ≠ .nan ∧
      d = .ofMicroseconds ((v * m * .ofDecimal false 1000000 0).toWhole 64)) ∧
    ∀ (before before' suffix : List Char) (l l' : Literal) (d' : Duration),
      cs = before ++ suffix → (∀ c ∈ suffix, c.isDigit = false) → l.Spells before →
        l'.Spells before' → l.number ≤ l'.number → read (before' ++ suffix) = .accepted d' →
          d.nanos ≤ d'.nanos := by
  obtain ⟨number, m, s, hparts, -, hd⟩ := (read_eq_accepted_iff cs d).mp h
  constructor
  · exact ⟨number, s.letters, m.value, s.multiplier, hparts.split_eq, hparts.measure?_eq,
      hparts.product_ne_nan h, hd⟩
  · rintro before before' suffix l l' d' rfl hsuffix hbefore hbefore' hle h'
    obtain ⟨number', m', s', hparts', -⟩ := (read_eq_accepted_iff _ d').mp h'
    obtain ⟨rfl, rfl⟩ := hparts.eq_of_spells hbefore hsuffix
    obtain ⟨rfl, hletters⟩ := hparts'.eq_of_spells hbefore' hsuffix
    obtain rfl := Suffix.letters_injective hletters
    exact hparts.nanos_le hparts' h h' hle

/-- A literal that is rounded to zero is in order with one that is rounded to infinity. -/
theorem read_keeps_order_of_extremes :
    (Literal.mk false ['1'] [] (-400)).number ≤ (Literal.mk false ['1'] [] 400).number ∧
      read "1e-400ms".toList = .accepted ⟨0⟩ ∧
      read "1e400ms".toList = .accepted ⟨18446744073709551615000⟩ ∧
      (⟨0⟩ : Duration).nanos ≤ (⟨18446744073709551615000⟩ : Duration).nanos ∧
      ∃ number suffix v m, split "1e-400ms".toList = some (number, suffix) ∧
        measure? number suffix = some (v, m) ∧ v * m * .ofDecimal false 1000000 0 ≠ .nan ∧
        ⟨0⟩ = Duration.ofMicroseconds ((v * m * .ofDecimal false 1000000 0).toWhole 64) := by
  have hsmall : (Literal.mk false ['1'] [] (-400)).Spells "1e-400".toList :=
    (Literal.read?_eq_some_iff _ _).mp (by decide +kernel)
  have hlarge : (Literal.mk false ['1'] [] 400).Spells "1e400".toList :=
    (Literal.read?_eq_some_iff _ _).mp (by decide +kernel)
  have hle : (Literal.mk false ['1'] [] (-400)).number ≤
      (Literal.mk false ['1'] [] 400).number := by
    have hscale : (Literal.mk false ['1'] [] (-400)).scale ≤
        (Literal.mk false ['1'] [] 400).scale := by simp [Literal.scale]
    rw [Literal.number_of_not_negative rfl, Literal.number_of_not_negative rfl]
    exact mul_le_mul_of_nonneg_left (zpow_le_zpow_right₀ (by norm_num) hscale)
      (Nat.cast_nonneg _)
  have hread : read "1e-400ms".toList = .accepted ⟨0⟩ := by decide +kernel
  have hread' : read "1e400ms".toList = .accepted ⟨18446744073709551615000⟩ := by decide +kernel
  have hsuffix : ∀ c ∈ ['m', 's'], c.isDigit = false := by simp
  obtain ⟨hnumber, horder⟩ := read_keeps_order hread
  exact ⟨hle, hread, hread',
    horder "1e-400".toList _ ['m', 's'] _ _ _ (by decide) hsuffix hsmall hlarge hle hread',
    hnumber⟩

end DeferredOpen.Delay
