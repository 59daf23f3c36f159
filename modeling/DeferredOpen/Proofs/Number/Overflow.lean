import DeferredOpen.Proofs.Number.Roundoff

/-!
# Products past the limit

Numbers are infinite from the limit on, and so is what they are multiplied to. To follow a chain of
products nothing else has to be known: the counts of units go on as if exponents were not bounded,
and a number that is infinite stands for a count that is large, however small the other factors
are. What is kept of a number in the end is the same for both.
-/

namespace DeferredOpen.Binary64

theorem limit_eq : limit = 2 ^ 2098 := by decide +kernel

theorem one_pos : 0 < one := by decide +kernel

theorem round_eq_ofUnits (negative : Bool) (num den : Nat) :
    round negative num den = ofUnits negative (nearest num den) := by
  simp only [round, ofUnits]

/-- A number stands for a count of units: it has this count, or it is infinite and the count is
2^n or more. -/
def StandsFor (n : Nat) (negative : Bool) (u : Nat) (b : Binary64) : Prop :=
  b = .finite negative u ∨ b = .infinite negative ∧ 2 ^ n ≤ u

theorem standsFor_ofUnits (negative : Bool) (u : Nat) :
    StandsFor 2098 negative u (ofUnits negative u) := by
  obtain hu | hu := Nat.lt_or_ge u limit
  · exact .inl (ofUnits_of_lt negative hu)
  · refine .inr ⟨ofUnits_of_le negative hu, ?_⟩
    rwa [← limit_eq]

namespace StandsFor

variable {n m : Nat} {negative : Bool} {u c : Nat} {b : Binary64}

theorem mono (h : StandsFor n negative u b) (hm : m ≤ n) : StandsFor m negative u b := by
  obtain rfl | ⟨rfl, hu⟩ := h
  · exact .inl rfl
  · exact .inr ⟨rfl, (Nat.pow_le_pow_right two_pos hm).trans hu⟩

theorem ne_nan (h : StandsFor n negative u b) : b ≠ .nan := by
  obtain rfl | ⟨rfl, -⟩ := h <;> exact nofun

/-- A product stands for the count nearest to the product of the counts. -/
theorem mul (h : StandsFor n negative u b) (hc : c ≠ 0) (hm : m ≤ 2098)
    (hnm : 2 ^ m * one ≤ 2 ^ n * c) :
    StandsFor m negative (nearest (u * c) one) (b * .finite false c) := by
  obtain rfl | ⟨rfl, hu⟩ := h
  · change StandsFor m negative _ (Binary64.mul (.finite negative u) (.finite false c))
    rw [Binary64.mul, Bool.xor_false, round_eq_ofUnits]
    exact (standsFor_ofUnits _ _).mono hm
  · change StandsFor m negative _ (Binary64.mul (.infinite negative) (.finite false c))
    rw [Binary64.mul, if_neg hc, Bool.xor_false]
    refine .inr ⟨rfl, (isNearest_nearest one_pos).le_of_held (held_two_pow m) ?_⟩
    have hle : 2 ^ m * one ≤ u * c := hnm.trans (Nat.mul_le_mul_right c hu)
    rw [le_div_iff₀ (by exact_mod_cast one_pos)]
    exact_mod_cast hle

/-- What is kept of a number that is not negative are the whole ones in its count. -/
theorem toWhole_eq {width : Nat} (h : StandsFor n negative u b) (hneg : negative = false ∨ u = 0)
    (hn : 2 ^ width * one ≤ 2 ^ n) :
    b.toWhole width = min (u / one) (2 ^ width - 1) := by
  obtain rfl | ⟨rfl, hu⟩ := h
  · obtain rfl | rfl := hneg
    · rfl
    · cases negative <;> simp [toWhole]
  · have hnegative : negative = false := by
      refine hneg.resolve_right ?_
      rintro rfl
      exact absurd hu (Nat.not_le.mpr (Nat.two_pow_pos n))
    subst hnegative
    have hwhole : 2 ^ width ≤ u / one := (Nat.le_div_iff_mul_le one_pos).mpr (hn.trans hu)
    rw [Nat.min_eq_right ((Nat.sub_le _ _).trans hwhole)]
    rfl

end StandsFor

/-- What is lost in units is lost in parts of one. -/
theorem Near.div {n : Nat} {a w x y : ℚ} (h : Near n a (x * w) y) (hw : 0 < w) :
    Near n (a / w) x (y / w) := by
  have hlower : x * (1 - roundoff) ^ n - a / w = (x * w * (1 - roundoff) ^ n - a) / w := by
    field_simp
  have hupper : x * (1 + roundoff) ^ n + a / w = (x * w * (1 + roundoff) ^ n + a) / w := by
    field_simp
  constructor
  · rw [hlower]
    exact div_le_div_of_nonneg_right h.lower hw.le
  · rw [hupper]
    exact div_le_div_of_nonneg_right h.upper hw.le

theorem Near.div_one {n : Nat} {a x y : ℚ} (h : Near n a (x * one) y) :
    Near n (a / one) x (y / one) :=
  h.div (by exact_mod_cast one_pos)

/-- A rational that is neither small nor large is rounded to a finite number close to it. -/
theorem IsRounded.exists_finite {x : ℚ} {b : Binary64} (h : IsRounded false x b)
    (hsmall : 2 ^ 52 ≤ x * one) (hlarge : x ≤ 2 ^ 100) :
    ∃ c, b = .finite false c ∧ Near 1 0 x (c / one) := by
  obtain ⟨c, hc, hb⟩ := h
  have hnear := hc.near_of_le hsmall
  have hone : (0 : ℚ) < one := by exact_mod_cast one_pos
  have hcount : (c : ℚ) < limit := by
    have hupper := hnear.le_two_mul (by linarith) (by rw [roundoff]; norm_num)
    have hlimit : (2 : ℚ) ^ 101 * one < limit := by
      exact_mod_cast (by decide +kernel : 2 ^ 101 * one < limit)
    calc (c : ℚ) ≤ x * one * 2 := hupper
      _ ≤ 2 ^ 100 * one * 2 := by linarith [mul_le_mul_of_nonneg_right hlarge hone.le]
      _ = 2 ^ 101 * one := by ring
      _ < limit := hlimit
  refine ⟨c, hb.trans (ofUnits_of_lt false (by exact_mod_cast hcount)), ?_⟩
  have hscaled := hnear.div_one
  rwa [zero_div] at hscaled

end DeferredOpen.Binary64
