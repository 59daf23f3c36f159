import DeferredOpen.Proofs.Delay.Quantity

/-!
# From the parts of a text to its microseconds

`millionfold` makes both products of the reader on counts of units, with exponents that are not
bounded. The reader's own product stands for that count, so it is a number even where it is
infinite, and the delay is the whole microseconds in the count, as many as 64 bits hold. Five
roundings lie between the count and the quantity that the text asks for.
-/

namespace DeferredOpen.Delay

open Binary64 (one IsNearest Near StandsFor nearest roundoff)

/-- The units in the product of two counts and a million, rounded after each factor. -/
def millionfold (u c : Nat) : Nat := nearest (nearest (u * c) one * (1000000 * one)) one

theorem millionfold_mono {u v : Nat} (c : Nat) (h : u ≤ v) :
    millionfold u c ≤ millionfold v c := by
  have hproduct := Binary64.nearest_mono Binary64.one_pos (Nat.mul_le_mul_right c h)
  exact Binary64.nearest_mono Binary64.one_pos (Nat.mul_le_mul_right (1000000 * one) hproduct)

theorem millionfold_zero (c : Nat) : millionfold 0 c = 0 := by
  rw [millionfold, Nat.zero_mul]
  decide +kernel

namespace Suffix.Counts

variable {s : Suffix} {c u : Nat} {negative : Bool} {v : Binary64}

/-- A multiplier is neither as small as a part of 2^30 nor greater than 2^17. -/
theorem bounds (h : s.Counts c) : (1 / 2 ^ 30 : ℚ) ≤ c / one ∧ (c / one : ℚ) ≤ 2 ^ 17 := by
  obtain ⟨hlower, hupper⟩ := s.seconds_bounds
  have hless := h.near.lower
  have hmore := h.near.upper
  rw [roundoff] at hless hmore
  constructor
  · linarith
  · linarith

theorem one_le (h : s.Counts c) : one ≤ 2 ^ 30 * c := by
  have hone : (0 : ℚ) < one := by exact_mod_cast Binary64.one_pos
  have hlower := h.bounds.1
  rw [div_le_div_iff₀ (by positivity) hone] at hlower
  have hunits : (one : ℚ) ≤ 2 ^ 30 * c := by linarith
  exact_mod_cast hunits

/-- The reader's product stands for the count. Infinity times a multiplier is infinite again,
because no multiplier is zero. -/
theorem standsFor_millionfold (h : s.Counts c) (hv : StandsFor 2098 negative u v) :
    StandsFor 2048 negative (millionfold u c)
      (v * s.multiplier * .ofDecimal false 1000000 0) := by
  have hc : c ≠ 0 := by
    rintro rfl
    exact absurd h.one_le (Nat.not_le.mpr Binary64.one_pos)
  have hfirst : 2 ^ 2068 * one ≤ 2 ^ 2098 * c := by
    have hpower : 2 ^ 2098 = 2 ^ 2068 * 2 ^ 30 := by decide +kernel
    rw [hpower, Nat.mul_assoc]
    exact Nat.mul_le_mul_left _ h.one_le
  have hsecond : 2 ^ 2048 * one ≤ 2 ^ 2068 * (1000000 * one) :=
    Nat.mul_le_mul (by decide +kernel) (Nat.le_mul_of_pos_left one (by decide))
  rw [h.multiplier, Binary64.ofDecimal_natCast (by decide)]
  have hmillion : 1000000 * one ≠ 0 := Nat.mul_ne_zero (by decide) Binary64.one_pos.ne'
  exact (hv.mul hc (by decide) hfirst).mul hmillion (by decide) hsecond

/-- The delay is the whole microseconds in the count. -/
theorem microseconds_eq (h : s.Counts c) (hv : StandsFor 2098 negative u v)
    (hnonneg : negative = false ∨ u = 0) :
    microseconds v s.multiplier = min (millionfold u c / one) (2 ^ 64 - 1) := by
  have hstands := h.standsFor_millionfold hv
  have hzero : negative = false ∨ millionfold u c = 0 := by
    refine hnonneg.imp_right ?_
    rintro rfl
    exact millionfold_zero c
  exact hstands.toWhole_eq hzero (by decide +kernel)

end Suffix.Counts

/-! How far the count is from what a text asks for. -/

theorem near_product (u c : Nat) :
    Near 1 (1 / 2 / one) (u / one * (c / one)) (nearest (u * c) one / one : ℚ) := by
  have hone : (0 : ℚ) < one := by exact_mod_cast Binary64.one_pos
  have hnearest : IsNearest (((u * c : Nat) : ℚ) / one) (nearest (u * c) one) :=
    Binary64.isNearest_nearest Binary64.one_pos
  have hunits : (((u * c : Nat) : ℚ) / one) = u / one * (c / one) * one := by
    push_cast
    field_simp
  have hnonneg : (0 : ℚ) ≤ u / one * (c / one) * one :=
    hunits ▸ div_nonneg (Nat.cast_nonneg _) hone.le
  rw [hunits] at hnearest
  exact (hnearest.near hnonneg).div_one

/-- What the three roundings of the reader lose besides their parts is a trifle. -/
theorem loss_bounds {loss factor : ℚ} (hloss : 0 ≤ loss) (hlost : loss ≤ 1 / 2 ^ 200)
    (hcount : 0 ≤ factor) (hfactor : factor ≤ 2 ^ 17) :
    0 ≤ (loss * factor * (1 + roundoff) ^ 1 + loss) * 10 ^ 6 ∧
      (loss * factor * (1 + roundoff) ^ 1 + loss) * 10 ^ 6 * (1 + roundoff) ^ 1 + loss
        ≤ 1 / 2 ^ 100 := by
  have hmore := Binary64.roundoff_pos
  have hmultiplied : loss * factor ≤ 1 / 2 ^ 200 * 2 ^ 17 :=
    mul_le_mul hlost hfactor hcount (by norm_num)
  constructor
  · positivity
  · rw [roundoff]
    linarith

/-- Five roundings are made in all, and what they lose besides their parts is a trifle. -/
theorem Suffix.Counts.near_millionfold {s : Suffix} {u c : Nat} {x : ℚ} (h : s.Counts c)
    (hu : IsNearest (x * one) u) (hx : 0 ≤ x) :
    Near 5 (1 / 2 ^ 100) (x * s.seconds * 10 ^ 6) (millionfold u c / one : ℚ) := by
  have hone : (0 : ℚ) < one := by exact_mod_cast Binary64.one_pos
  have hseconds : 0 ≤ s.seconds := s.seconds_pos.le
  have hloss : (0 : ℚ) ≤ 1 / 2 / one := div_nonneg (by norm_num) hone.le
  have hlost : (1 / 2 / one : ℚ) ≤ 1 / 2 ^ 200 := by
    rw [div_div]
    exact one_div_le_one_div_of_le (by norm_num) (by linarith [two_pow_le_one])
  have hcount : (0 : ℚ) ≤ c / one := div_nonneg (Nat.cast_nonneg c) hone.le
  have hnumber := (hu.near (mul_nonneg hx hone.le)).div_one
  have hmultiplied := (hnumber.mul h.near hx hseconds).trans (near_product u c)
    (mul_nonneg hloss hcount)
  have hmillion : ((1000000 * one : Nat) : ℚ) / one = 10 ^ 6 := by
    rw [Nat.cast_mul, mul_div_cancel_right₀ _ hone.ne']
    norm_num
  have hlast := near_product (nearest (u * c) one) (1000000 * one)
  rw [hmillion] at hlast
  obtain ⟨hnonneg, htrifle⟩ := loss_bounds hloss hlost hcount h.bounds.2
  have hall := (hmultiplied.mul (Near.refl (10 ^ 6 : ℚ)) (mul_nonneg hx hseconds)
    (by norm_num)).trans hlast hnonneg
  refine hall.mono ?_ (by decide) htrifle
  exact mul_nonneg (mul_nonneg hx hseconds) (by norm_num)

/-! What accepted texts come to. -/

variable {cs number : List Char} {l : Literal} {s : Suffix} {c : Nat} {d : Duration}

/-- The number of an accepted text stands for the count nearest to its literal, with a minus sign
for zero only, and the delay comes from this count. -/
theorem Parts.exists_units (h : Parts cs number l s) (hc : s.Counts c)
    (hread : read cs = .accepted d) :
    ∃ u, IsNearest (l.magnitude * one) u ∧ StandsFor 2098 l.negative u l.value ∧
      (l.negative = false ∨ u = 0) ∧
      d = .ofMicroseconds (min (millionfold u c / one) (2 ^ 64 - 1)) := by
  obtain ⟨number', l', s', h', hnonneg, rfl⟩ := (read_eq_accepted_iff cs d).mp hread
  obtain ⟨-, rfl, rfl⟩ := h.unique h'
  have hrounded := Literal.isRounded_value h.literal.isDigits
  have hsign := hrounded.isNonneg_iff.mp hnonneg
  obtain ⟨u, hu, hvalue⟩ := hrounded
  have hstands := Binary64.standsFor_ofUnits l'.negative u
  rw [← hvalue] at hstands
  have hzero : l'.negative = false ∨ u = 0 := by
    refine hsign.imp_right ?_
    intro hzero
    obtain hfinite | ⟨hinfinite, -⟩ := hstands
    · exact (Binary64.finite.inj (hfinite.symm.trans hzero)).2
    · rw [hinfinite] at hzero
      cases hzero
  refine ⟨u, hu, hstands, hzero, ?_⟩
  rw [hc.microseconds_eq hstands hzero]

/-- A minus sign is accepted where the number is rounded to zero. -/
theorem Parts.eq_zero_of_negative (h : Parts cs number l s) (hread : read cs = .accepted d)
    (hnegative : l.negative = true) : d = .ofMicroseconds 0 := by
  obtain ⟨c, hc⟩ := s.exists_counts
  obtain ⟨u, -, -, hsign, hd⟩ := h.exists_units hc hread
  have hzero : u = 0 := hsign.resolve_left (by simp [hnegative])
  rw [hd, hzero, millionfold_zero, Nat.zero_div, Nat.zero_min]

end DeferredOpen.Delay
