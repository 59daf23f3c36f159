import DeferredOpen.Proofs.Number.Nearest
import Mathlib.Data.Nat.Prime.Basic
import Mathlib.Tactic.NormNum

/-!
# What rounding keeps

Rounding to the nearest keeps the order of what is rounded, and it is off by half a unit or by the
2^53rd part, whichever is more. `Near` follows both errors through products: it counts the
roundings that have been made one after the other, and adds up what they have lost in units.
-/

namespace DeferredOpen.Binary64

/-! Of two counts the upper one is nearest only from the middle between them on. -/

theorem add_le_of_distance_le {x : ℚ} {u v : Nat} (hvu : v < u)
    (h : distance x u ≤ distance x v) : (u + v : ℚ) ≤ 2 * x := by
  have hlt : (v : ℚ) < u := by exact_mod_cast hvu
  by_contra hx
  rw [distance, distance, abs_of_nonneg (show (0 : ℚ) ≤ u - x by linarith)] at h
  have hnearer : |(v : ℚ) - x| < u - x := abs_lt.mpr ⟨by linarith, by linarith⟩
  linarith

theorem le_add_of_distance_le {x : ℚ} {u v : Nat} (hvu : v < u)
    (h : distance x v ≤ distance x u) : 2 * x ≤ (u + v : ℚ) := by
  have hlt : (v : ℚ) < u := by exact_mod_cast hvu
  by_contra hx
  rw [distance, distance, abs_of_nonpos (show (v : ℚ) - x ≤ 0 by linarith)] at h
  have hnearer : |(u : ℚ) - x| < -(v - x) := abs_lt.mpr ⟨by linarith, by linarith⟩
  linarith

/-- Rounding keeps the order. Two rationals that would be rounded the wrong way round are both in
the middle between the two counts, and then the tie is settled for both alike. -/
theorem IsNearest.mono {x y : ℚ} {u v : Nat} (hu : IsNearest x u) (hv : IsNearest y v)
    (h : x ≤ y) : u ≤ v := by
  by_contra hle
  have hvu : v < u := Nat.lt_of_not_le hle
  have habove := add_le_of_distance_le hvu (hu.nearest v hv.held)
  have hbelow := le_add_of_distance_le hvu (hv.nearest u hu.held)
  have hxy : x = y := by linarith
  subst hxy
  exact hvu.ne (hv.unique hu)

theorem nearest_mono {num num' den : Nat} (hden : 0 < den) (h : num ≤ num') :
    nearest num den ≤ nearest num' den := by
  refine (isNearest_nearest hden).mono (isNearest_nearest hden) ?_
  have hnum : (num : ℚ) ≤ num' := by exact_mod_cast h
  exact div_le_div_of_nonneg_right hnum (Nat.cast_nonneg den)

/-- A held count is rounded to itself. -/
theorem Held.isNearest {u : Nat} (h : Held u) : IsNearest u u := by
  have hzero : distance u u = 0 := by rw [distance, sub_self, abs_zero]
  refine ⟨h, ?_, ?_⟩
  · intro v _
    rw [hzero]
    exact abs_nonneg _
  · intro v _ hne heq
    rw [hzero] at heq
    have hsame : (v : ℚ) - u = 0 := abs_eq_zero.mp heq.symm
    exact absurd (by exact_mod_cast sub_eq_zero.mp hsame) hne

theorem held_two_pow (n : Nat) : Held (2 ^ n) := ⟨1, n, by decide, (one_mul _).symm⟩

/-- Of a number that 53 bits hold they hold each divisor. -/
theorem Held.of_dvd {u v : Nat} (h : Held v) (hv : v ≠ 0) (hdvd : u ∣ v) : Held u := by
  obtain ⟨m, e, hm, rfl⟩ := h
  obtain ⟨y, z, hy, hz, rfl⟩ := Nat.dvd_mul.mp hdvd
  obtain ⟨f, -, rfl⟩ := (Nat.dvd_prime_pow Nat.prime_two).mp hz
  have hpos : 0 < m := Nat.pos_of_ne_zero (left_ne_zero_of_mul hv)
  exact ⟨y, f, (Nat.le_of_dvd hpos hy).trans_lt hm, rfl⟩

/-- A quotient that is a held count is rounded to it. -/
theorem nearest_mul_of_held {u den : Nat} (h : Held u) (hden : 0 < den) :
    nearest (u * den) den = u := by
  have hquotient : ((u * den : Nat) : ℚ) / den = u := by
    rw [Nat.cast_mul, mul_div_cancel_right₀]
    exact_mod_cast hden.ne'
  have hnearest : IsNearest (((u * den : Nat) : ℚ) / den) (nearest (u * den) den) :=
    isNearest_nearest hden
  rw [hquotient] at hnearest
  exact hnearest.unique h.isNearest

/-! How far a count is from what it was rounded from. -/

/-- Neighbours are a unit apart, or by the 2^52nd part of what lies between them. -/
theorem two_pow_mul_spacing_le (q : Nat) : 2 ^ 52 * spacing q ≤ max (2 ^ 52) q := by
  rw [spacing, Nat.pow_eq]
  obtain hlog | hlog := Nat.le_total q.log2 52
  · rw [Nat.sub_eq_zero_of_le hlog]
    exact le_max_left _ _
  · have hq : q ≠ 0 := by
      rintro rfl
      simp at hlog
    rw [← Nat.pow_add, Nat.add_sub_cancel' hlog]
    exact (Nat.log2_self_le hq).trans (le_max_right _ _)

theorem distance_nearest_le_max (num : Nat) {den : Nat} (h : 0 < den) :
    distance (num / den) (nearest num den) ≤ max (1 / 2) ((num / den : ℚ) / 2 ^ 53) := by
  obtain ⟨hhalf, -⟩ := near_nearest num h
  have hquotient : ((num / den : Nat) : ℚ) ≤ num / den := Nat.cast_div_le
  have hspacing : (2 : ℚ) ^ 52 * spacing (num / den) ≤ max (2 ^ 52) ((num / den : Nat) : ℚ) := by
    exact_mod_cast two_pow_mul_spacing_le (num / den)
  have hmax : max ((2 : ℚ) ^ 52) ((num / den : Nat) : ℚ) ≤ max (2 ^ 52) (num / den : ℚ) :=
    max_le_max_left _ hquotient
  have hstep : (spacing (num / den) : ℚ) * (1 / 2) ≤ max (2 ^ 52) (num / den : ℚ) / 2 ^ 53 := by
    rw [le_div_iff₀ (by positivity)]
    linarith
  calc distance (num / den) (nearest num den)
      = spacing (num / den) * distance ((num / den : ℚ) / spacing (num / den))
          (roundHalfEven num (den * spacing (num / den))) := by
        rw [nearest_eq, distance_mul _ (spacing_pos _)]
    _ ≤ spacing (num / den) * (1 / 2) := mul_le_mul_of_nonneg_left hhalf (Nat.cast_nonneg _)
    _ ≤ max (2 ^ 52) (num / den : ℚ) / 2 ^ 53 := hstep
    _ = max (1 / 2) ((num / den : ℚ) / 2 ^ 53) := by
        rw [← max_div_div_right (by positivity)]
        norm_num

/-- What is rounded is moved by half a unit or by its 2^53rd part at most. -/
theorem IsNearest.distance_le {x : ℚ} {u : Nat} (h : IsNearest x u) (h₀ : 0 ≤ x) :
    distance x u ≤ max (1 / 2) (x / 2 ^ 53) := by
  have hx : x = (x.num.toNat : ℚ) / x.den := by
    have hnum : ((x.num.toNat : ℤ) : ℚ) = x.num := by
      rw [Int.toNat_of_nonneg (Rat.num_nonneg.mpr h₀)]
    rw [← Int.cast_natCast, hnum, Rat.num_div_den]
  rw [hx] at h ⊢
  rw [h.unique (isNearest_nearest x.den_pos)]
  exact distance_nearest_le_max _ x.den_pos

/-! Errors along a chain of products. -/

/-- The part of a rational by which one rounding moves it at most. -/
def roundoff : ℚ := 1 / 2 ^ 53

theorem roundoff_pos : 0 < roundoff := by
  rw [roundoff]
  positivity

theorem roundoff_lt_one : roundoff < 1 := by
  rw [roundoff]
  norm_num

/-- A rational that has come from another one by `n` roundings, which have lost `a` besides. -/
structure Near (n : Nat) (a x y : ℚ) : Prop where
  lower : x * (1 - roundoff) ^ n - a ≤ y
  upper : y ≤ x * (1 + roundoff) ^ n + a

namespace Near

variable {n m : Nat} {a b w x y z : ℚ}

theorem refl (x : ℚ) : Near 0 0 x x := by
  constructor <;> simp

theorem le_two_mul (h : Near n 0 x y) (hx : 0 ≤ x) (hn : (1 + roundoff) ^ n ≤ 2) : y ≤ x * 2 := by
  have hupper := h.upper
  rw [add_zero] at hupper
  exact hupper.trans (mul_le_mul_of_nonneg_left hn hx)

/-- More roundings and a greater loss leave more room. -/
theorem mono (h : Near n a x y) (hx : 0 ≤ x) (hn : n ≤ m) (ha : a ≤ b) : Near m b x y := by
  have hlower : x * (1 - roundoff) ^ m ≤ x * (1 - roundoff) ^ n :=
    mul_le_mul_of_nonneg_left
      (pow_le_pow_of_le_one (by linarith [roundoff_lt_one]) (by linarith [roundoff_pos]) hn) hx
  have hupper : x * (1 + roundoff) ^ n ≤ x * (1 + roundoff) ^ m :=
    mul_le_mul_of_nonneg_left (pow_le_pow_right₀ (by linarith [roundoff_pos]) hn) hx
  constructor
  · linarith [h.lower]
  · linarith [h.upper]

/-- Later roundings move what earlier ones have lost, too. -/
theorem trans (h : Near n a x y) (h' : Near m b y z) (ha : 0 ≤ a) :
    Near (n + m) (a * (1 + roundoff) ^ m + b) x z := by
  have hless : 0 ≤ (1 - roundoff) ^ m := pow_nonneg (by linarith [roundoff_lt_one]) m
  have hmore : 0 ≤ (1 + roundoff) ^ m := pow_nonneg (by linarith [roundoff_pos]) m
  have hlost : a * (1 - roundoff) ^ m ≤ a * (1 + roundoff) ^ m :=
    mul_le_mul_of_nonneg_left (pow_le_pow_left₀ (by linarith [roundoff_lt_one])
      (by linarith [roundoff_pos]) m) ha
  have hlower := mul_le_mul_of_nonneg_right h.lower hless
  have hupper := mul_le_mul_of_nonneg_right h.upper hmore
  constructor
  · calc x * (1 - roundoff) ^ (n + m) - (a * (1 + roundoff) ^ m + b)
        ≤ (x * (1 - roundoff) ^ n - a) * (1 - roundoff) ^ m - b := by
          rw [pow_add]
          linarith
      _ ≤ y * (1 - roundoff) ^ m - b := by linarith
      _ ≤ z := h'.lower
  · calc z ≤ y * (1 + roundoff) ^ m + b := h'.upper
      _ ≤ (x * (1 + roundoff) ^ n + a) * (1 + roundoff) ^ m + b := by linarith
      _ = x * (1 + roundoff) ^ (n + m) + (a * (1 + roundoff) ^ m + b) := by
          rw [pow_add]
          ring

/-- In a product the roundings of both factors count. -/
theorem mul (h : Near n a x y) (h' : Near m 0 z w) (hx : 0 ≤ x) (hz : 0 ≤ z) :
    Near (n + m) (a * w) (x * z) (y * w) := by
  have hless : ∀ k, 0 ≤ (1 - roundoff) ^ k := pow_nonneg (by linarith [roundoff_lt_one])
  have hmore : ∀ k, 0 ≤ (1 + roundoff) ^ k := pow_nonneg (by linarith [roundoff_pos])
  obtain ⟨hlower', hupper'⟩ := h'
  rw [sub_zero] at hlower'
  rw [add_zero] at hupper'
  have hw : 0 ≤ w := (mul_nonneg hz (hless m)).trans hlower'
  have hlower := mul_le_mul_of_nonneg_right h.lower hw
  have hupper := mul_le_mul_of_nonneg_right h.upper hw
  have hxlower := mul_le_mul_of_nonneg_left hlower' (mul_nonneg hx (hless n))
  have hxupper := mul_le_mul_of_nonneg_left hupper' (mul_nonneg hx (hmore n))
  constructor
  · rw [pow_add]
    linarith
  · rw [pow_add]
    linarith

end Near

/-- One rounding loses half a unit at most, besides its part of what is rounded. -/
theorem IsNearest.near {x : ℚ} {u : Nat} (h : IsNearest x u) (h₀ : 0 ≤ x) :
    Near 1 (1 / 2) x u := by
  have hpart : 0 ≤ x / 2 ^ 53 := by positivity
  have hdistance := (h.distance_le h₀).trans (max_le_add_of_nonneg (by norm_num) hpart)
  obtain ⟨hlower, hupper⟩ := abs_le.mp hdistance
  constructor
  · rw [pow_one, roundoff]
    linarith
  · rw [pow_one, roundoff]
    linarith

/-- From 2^52 units on nothing is lost besides the part. -/
theorem IsNearest.near_of_le {x : ℚ} {u : Nat} (h : IsNearest x u) (hx : 2 ^ 52 ≤ x) :
    Near 1 0 x u := by
  have hpart : 1 / 2 ≤ x / 2 ^ 53 := by
    rw [le_div_iff₀ (by positivity)]
    linarith
  have hdistance := h.distance_le (by linarith)
  rw [max_eq_right hpart] at hdistance
  obtain ⟨hlower, hupper⟩ := abs_le.mp hdistance
  constructor
  · rw [pow_one, roundoff]
    linarith
  · rw [pow_one, roundoff]
    linarith

end DeferredOpen.Binary64
