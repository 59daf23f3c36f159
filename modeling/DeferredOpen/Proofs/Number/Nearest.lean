import DeferredOpen.Number.Binary64
import Mathlib.Algebra.Order.Field.Rat
import Mathlib.Data.Nat.Cast.Order.Field
import Mathlib.Data.Rat.Cast.Order
import Mathlib.Tactic.FieldSimp
import Mathlib.Tactic.Linarith
import Mathlib.Tactic.Positivity
import Mathlib.Tactic.Ring

/-!
# Rounding to the nearest

What it means for a count of units to be the nearest one to a rational is said here without the
way it is found: no count that 53 bits can hold is nearer, and of two that are equally near it is
the even multiple of their distance. At most one count is nearest in this sense, and
`Binary64.nearest` is that count. The exponent is not bounded here; from `limit` on a rounded
number is infinite.
-/

namespace DeferredOpen.Binary64

/-- The counts of units that 53 bits can hold, with any exponent. -/
def Held (u : Nat) : Prop := ∃ m e, m < 2 ^ 53 ∧ u = m * 2 ^ e

def distance (x : ℚ) (u : Nat) : ℚ := |(u : ℚ) - x|

/-- A held count nearest to a rational; where another one is as near, it is an even multiple of
the distance between the two. -/
structure IsNearest (x : ℚ) (u : Nat) : Prop where
  held : Held u
  nearest : ∀ v, Held v → distance x u ≤ distance x v
  even : ∀ v, Held v → v ≠ u → distance x u = distance x v → 2 * ((u : ℤ) - v).natAbs ∣ u

/-- The number with a count of units, infinite from the limit on. -/
def ofUnits (negative : Bool) (u : Nat) : Binary64 :=
  if u < limit then .finite negative u else .infinite negative

theorem limit_pos : 0 < limit := by decide +kernel

theorem ofUnits_of_lt (negative : Bool) {u : Nat} (h : u < limit) :
    ofUnits negative u = .finite negative u := by
  rw [ofUnits]
  exact if_pos h

theorem ofUnits_of_le (negative : Bool) {u : Nat} (h : limit ≤ u) :
    ofUnits negative u = .infinite negative := by
  rw [ofUnits]
  exact if_neg (Nat.not_lt.mpr h)

/-- The number that a rational of some magnitude is rounded to. -/
def IsRounded (negative : Bool) (magnitude : ℚ) (b : Binary64) : Prop :=
  ∃ u, IsNearest (magnitude * one) u ∧ b = ofUnits negative u

/-- A tie is settled by both counts, and they cannot both be even multiples of their distance. -/
theorem IsNearest.unique {x : ℚ} {u v : Nat} (hu : IsNearest x u) (hv : IsNearest x v) :
    u = v := by
  by_contra hne
  have hd : distance x u = distance x v :=
    le_antisymm (hu.nearest v hv.held) (hv.nearest u hu.held)
  have h₁ := hu.even v hv.held (Ne.symm hne) hd
  have h₂ := hv.even u hu.held hne hd.symm
  have hs : ((v : ℤ) - u).natAbs = ((u : ℤ) - v).natAbs := by omega
  rw [hs] at h₂
  have h : ((2 * ((u : ℤ) - v).natAbs : Nat) : ℤ) ∣ (u : ℤ) - v :=
    dvd_sub (Int.natCast_dvd_natCast.mpr h₁) (Int.natCast_dvd_natCast.mpr h₂)
  have hle := Nat.le_of_dvd (by omega) (Int.natCast_dvd.mp h)
  omega

theorem IsRounded.unique {negative : Bool} {x : ℚ} {a b : Binary64}
    (ha : IsRounded negative x a) (hb : IsRounded negative x b) : a = b := by
  obtain ⟨u, hu, ha⟩ := ha
  obtain ⟨v, hv, hb⟩ := hb
  rw [ha, hb, hu.unique hv]

/-! Rounding a quotient to a whole number. -/

theorem roundHalfEven_le (num den : Nat) : roundHalfEven num den ≤ num / den + 1 := by
  simp only [roundHalfEven]
  split
  · omega
  · split <;> omega

/-- The rounded quotient is off by at most a half, and by a half only if it is even. -/
theorem roundHalfEven_near (num : Nat) {den : Nat} (h : 0 < den) :
    distance (num / den) (roundHalfEven num den) ≤ 1 / 2 ∧
      (distance (num / den) (roundHalfEven num den) = 1 / 2 → 2 ∣ roundHalfEven num den) := by
  have hden : (0 : ℚ) < den := by exact_mod_cast h
  have hnum : (num : ℚ) = den * (num / den : Nat) + (num % den : Nat) := by
    exact_mod_cast (Nat.div_add_mod num den).symm
  have hx : (num : ℚ) / den = (num / den : Nat) + ((num % den : Nat) : ℚ) / den := by
    rw [hnum]
    field_simp
  have hpos : (0 : ℚ) ≤ ((num % den : Nat) : ℚ) / den := by positivity
  simp only [roundHalfEven, distance, hx]
  split
  · next hlt =>
    have hr : ((num % den : Nat) : ℚ) / den < 1 / 2 := by
      rw [div_lt_div_iff₀ hden two_pos]
      exact_mod_cast (by omega : num % den * 2 < 1 * den)
    rw [abs_of_nonpos (by linarith)]
    exact ⟨by linarith, fun heq => by linarith⟩
  · next hge =>
    split
    · next hgt =>
      have hr : 1 / 2 < ((num % den : Nat) : ℚ) / den := by
        rw [div_lt_div_iff₀ two_pos hden]
        exact_mod_cast (by omega : 1 * den < num % den * 2)
      have hr' : ((num % den : Nat) : ℚ) / den < 1 := by
        rw [div_lt_one hden]
        exact_mod_cast Nat.mod_lt num h
      rw [Nat.cast_add, Nat.cast_one, abs_of_nonneg (by linarith)]
      exact ⟨by linarith, fun heq => by linarith⟩
    · next hle =>
      have hr : ((num % den : Nat) : ℚ) / den = 1 / 2 := by
        rw [div_eq_div_iff hden.ne' two_ne_zero]
        exact_mod_cast (by omega : num % den * 2 = 1 * den)
      refine ⟨?_, fun _ => by omega⟩
      rw [hr]
      obtain hq | hq : num / den % 2 = 0 ∨ num / den % 2 = 1 := by omega
      · rw [hq, Nat.add_zero, abs_of_nonpos (by linarith)]
        linarith
      · rw [hq, Nat.cast_add, Nat.cast_one, abs_of_nonneg (by linarith)]
        linarith

/-- Two whole numbers are at least one apart, so one within a half is a nearest one. -/
theorem one_le_distance_add {x : ℚ} {u v : Nat} (hne : u ≠ v) :
    1 ≤ distance x u + distance x v := by
  have hone : (1 : ℚ) ≤ |((u : ℤ) - v : ℤ)| := by
    exact_mod_cast Int.one_le_abs (show (u : ℤ) - v ≠ 0 by omega)
  push_cast at hone
  calc (1 : ℚ) ≤ |(u : ℚ) - v| := hone
    _ ≤ |(u : ℚ) - x| + |x - v| := abs_sub_le _ _ _
    _ = distance x u + distance x v := by rw [abs_sub_comm x]; rfl

/-- Two whole numbers that share the distance of a half are neighbours. -/
theorem natAbs_sub_eq_one {x : ℚ} {u v : Nat} (hne : u ≠ v) (hu : distance x u ≤ 1 / 2)
    (heq : distance x u = distance x v) :
    distance x u = 1 / 2 ∧ ((u : ℤ) - v).natAbs = 1 := by
  have hone := one_le_distance_add (x := x) hne
  have hle : |((u : ℤ) - v : ℤ)| ≤ (1 : ℚ) := by
    push_cast
    calc |(u : ℚ) - v| ≤ |(u : ℚ) - x| + |x - v| := abs_sub_le _ _ _
      _ = distance x u + distance x v := by rw [abs_sub_comm x]; rfl
      _ ≤ 1 := by linarith
  have hle' : |(u : ℤ) - v| ≤ 1 := by exact_mod_cast hle
  rw [Int.abs_eq_natAbs] at hle'
  exact ⟨by linarith, by omega⟩

/-- Distances scale. -/
theorem distance_mul (x : ℚ) {s : Nat} (hs : 0 < s) (u : Nat) :
    distance x (u * s) = s * distance (x / s) u := by
  have hpos : (0 : ℚ) < s := by exact_mod_cast hs
  have hx : ((u * s : Nat) : ℚ) - x = s * (u - x / s) := by
    push_cast
    field_simp
  rw [distance, distance, hx, abs_mul, abs_of_pos hpos]

/-! The counts that 53 bits hold, and their spacing around one of them. -/

theorem spacing_pos (q : Nat) : 0 < spacing q := Nat.two_pow_pos _

theorem div_spacing_lt (q : Nat) : q / spacing q < 2 ^ 53 := by
  rw [Nat.div_lt_iff_lt_mul (spacing_pos q)]
  have hq := Nat.lt_log2_self (n := q)
  refine lt_of_lt_of_le hq ?_
  rw [spacing, Nat.pow_eq, ← Nat.pow_add]
  exact Nat.pow_le_pow_right two_pos (by omega)

/-- A carry into the 54th bit is still held, with a larger exponent. -/
theorem held_mul_two_pow {r : Nat} (h : r ≤ 2 ^ 53) (e : Nat) : Held (r * 2 ^ e) := by
  obtain h | h := Nat.lt_or_eq_of_le h
  · exact ⟨r, e, h, rfl⟩
  · exact ⟨2 ^ 52, e + 1, by decide, by rw [h]; ring⟩

theorem Held.dvd_or_lt {v : Nat} (h : Held v) (q : Nat) :
    spacing q ∣ v ∨ (v < 2 ^ q.log2 ∧ 52 < q.log2) := by
  obtain ⟨m, e, hm, rfl⟩ := h
  obtain he | he := Nat.lt_or_ge e (q.log2 - 52)
  · right
    refine ⟨?_, by omega⟩
    calc m * 2 ^ e < 2 ^ 53 * 2 ^ e := Nat.mul_lt_mul_of_pos_right hm (Nat.two_pow_pos e)
      _ = 2 ^ (53 + e) := (Nat.pow_add 2 53 e).symm
      _ ≤ 2 ^ q.log2 := Nat.pow_le_pow_right two_pos (by omega)
  · left
    exact Dvd.dvd.mul_left (Nat.pow_dvd_pow 2 he) m

section

variable {num den : Nat}

/-- The whole number whose multiple of the spacing `nearest` takes. -/
theorem nearest_eq (num den : Nat) :
    nearest num den =
      roundHalfEven num (den * spacing (num / den)) * spacing (num / den) := rfl

theorem held_nearest (num den : Nat) : Held (nearest num den) := by
  have hle := roundHalfEven_le num (den * spacing (num / den))
  rw [← Nat.div_div_eq_div_mul] at hle
  have hlt := div_spacing_lt (num / den)
  exact held_mul_two_pow (by omega) _

theorem near_nearest (num : Nat) (h : 0 < den) :
    distance ((num / den : ℚ) / spacing (num / den))
        (roundHalfEven num (den * spacing (num / den))) ≤ 1 / 2 ∧
      (distance ((num / den : ℚ) / spacing (num / den))
          (roundHalfEven num (den * spacing (num / den))) = 1 / 2 →
        2 ∣ roundHalfEven num (den * spacing (num / den))) := by
  have hnear := roundHalfEven_near num (Nat.mul_pos h (spacing_pos (num / den)))
  rwa [Nat.cast_mul, ← div_div] at hnear

/-- Among the multiples of the spacing none is nearer. -/
theorem distance_nearest_le (h : 0 < den) {v : Nat} (hv : spacing (num / den) ∣ v) :
    distance (num / den) (nearest num den) ≤ distance (num / den) v := by
  obtain ⟨w, rfl⟩ := hv
  have hs := spacing_pos (num / den)
  rw [nearest_eq, Nat.mul_comm _ w, distance_mul _ hs, distance_mul _ hs]
  refine mul_le_mul_of_nonneg_left ?_ (Nat.cast_nonneg _)
  obtain ⟨hhalf, -⟩ := near_nearest num h
  by_cases hw : w = roundHalfEven num (den * spacing (num / den))
  · rw [hw]
  · have hone := one_le_distance_add (x := (num / den : ℚ) / spacing (num / den)) hw
    linarith

/-- A count between the multiples of the spacing is a small one, and the power of two that the
quotient has reached lies between it and the quotient. -/
theorem distance_nearest_lt (h : 0 < den) {v : Nat} (hv : v < 2 ^ (num / den).log2)
    (hq : 52 < (num / den).log2) :
    distance (num / den) (nearest num den) < distance (num / den) v := by
  have hq0 : num / den ≠ 0 := by
    intro h0
    simp [h0] at hq
  have hdvd : spacing (num / den) ∣ 2 ^ (num / den).log2 := Nat.pow_dvd_pow 2 (by omega)
  have hx : ((2 ^ (num / den).log2 : Nat) : ℚ) ≤ num / den :=
    le_trans (by exact_mod_cast Nat.log2_self_le hq0) Nat.cast_div_le
  have hvb : (v : ℚ) < ((2 ^ (num / den).log2 : Nat) : ℚ) := by exact_mod_cast hv
  refine lt_of_le_of_lt (distance_nearest_le h hdvd) ?_
  rw [distance, distance, abs_of_nonpos (by linarith), abs_of_nonpos (by linarith)]
  linarith

/-- The count that `nearest` finds is the nearest one. -/
theorem isNearest_nearest (h : 0 < den) : IsNearest (num / den) (nearest num den) := by
  have hs := spacing_pos (num / den)
  refine ⟨held_nearest num den, ?_, ?_⟩
  · intro v hv
    obtain hdvd | ⟨hlt, hq⟩ := hv.dvd_or_lt (num / den)
    · exact distance_nearest_le h hdvd
    · exact (distance_nearest_lt h hlt hq).le
  · intro v hv hne heq
    obtain hdvd | ⟨hlt, hq⟩ := hv.dvd_or_lt (num / den)
    · obtain ⟨w, rfl⟩ := hdvd
      rw [nearest_eq, Nat.mul_comm _ w] at hne heq
      rw [nearest_eq, Nat.mul_comm _ w]
      rw [distance_mul _ hs, distance_mul _ hs] at heq
      have heq' := mul_left_cancel₀ (by exact_mod_cast hs.ne') heq
      obtain ⟨hhalf, heven⟩ := near_nearest num h
      obtain ⟨htie, hone⟩ := natAbs_sub_eq_one (fun hw => hne (by rw [hw])) hhalf heq'
      rw [Nat.cast_mul, Nat.cast_mul, ← Int.sub_mul, Int.natAbs_mul, hone, Nat.one_mul,
        Int.natAbs_natCast]
      exact Nat.mul_dvd_mul (heven htie) (dvd_refl _)
    · exact absurd heq (distance_nearest_lt h hlt hq).ne

end

/-! Rounded numbers: products and quotients, zero, and the ones that are infinite. -/

theorem isRounded_round (negative : Bool) {num den : Nat} (h : 0 < den) {x : ℚ}
    (hx : x * one = num / den) : IsRounded negative x (round negative num den) := by
  refine ⟨nearest num den, ?_, rfl⟩
  rw [hx]
  exact isNearest_nearest h

/-- A decimal number is rounded as the rational that it is. -/
theorem isRounded_ofDecimal (negative : Bool) (coefficient : Nat) (exponent : ℤ) :
    IsRounded negative (coefficient * 10 ^ exponent) (ofDecimal negative coefficient exponent) := by
  unfold ofDecimal
  split
  · next h =>
    obtain ⟨n, rfl⟩ := Int.eq_ofNat_of_zero_le h
    refine isRounded_round negative one_pos ?_
    rw [Int.toNat_natCast, zpow_natCast, Nat.pow_eq]
    push_cast
    ring
  · next h =>
    obtain ⟨n, hn⟩ := Int.eq_ofNat_of_zero_le (show 0 ≤ -exponent by omega)
    refine isRounded_round negative (Nat.pow_pos (by decide)) ?_
    rw [show exponent = -(n : ℤ) by omega, neg_neg, Int.toNat_natCast, zpow_neg, zpow_natCast]
    push_cast
    rw [div_eq_mul_inv, mul_right_comm]

/-- Up to half a unit the nearest count is zero; a tie with one unit goes to zero. -/
theorem isNearest_zero {x : ℚ} (h₀ : 0 ≤ x) (h : x ≤ 1 / 2) : IsNearest x 0 := by
  refine ⟨⟨0, 0, by decide, rfl⟩, ?_, fun v _ _ _ => dvd_zero _⟩
  intro v _
  obtain rfl | hv := Nat.eq_zero_or_pos v
  · exact le_refl _
  · have hv : (1 : ℚ) ≤ v := by exact_mod_cast hv
    rw [distance, distance, Nat.cast_zero, abs_of_nonpos (by linarith),
      abs_of_nonneg (by linarith)]
    linarith

theorem isRounded_zero (negative : Bool) {x : ℚ} (h₀ : 0 ≤ x) (h : x * one ≤ 1 / 2) :
    IsRounded negative x (.finite negative 0) := by
  exact ⟨0, isNearest_zero (mul_nonneg h₀ (Nat.cast_nonneg _)) h,
    (ofUnits_of_lt negative limit_pos).symm⟩

/-- Rounding does not pass a held count. -/
theorem IsNearest.le_of_held {x : ℚ} {u b : Nat} (h : IsNearest x u) (hb : Held b)
    (hx : (b : ℚ) ≤ x) : b ≤ u := by
  by_contra hlt
  have hu : (u : ℚ) < b := by exact_mod_cast Nat.lt_of_not_le hlt
  have hle := h.nearest b hb
  rw [distance, distance, abs_of_nonpos (by linarith), abs_of_nonpos (by linarith)] at hle
  linarith

theorem held_limit : Held limit := ⟨1, 2098, by decide, by decide +kernel⟩

theorem IsRounded.eq_infinite {negative : Bool} {x : ℚ} {b : Binary64}
    (hb : IsRounded negative x b) (h : (limit : ℚ) ≤ x * one) : b = .infinite negative := by
  obtain ⟨u, hu, hb⟩ := hb
  rw [hb, ofUnits_of_le negative (hu.le_of_held held_limit h)]

/-- A rounded number with a minus sign counts as zero or more only if it is zero. -/
theorem IsRounded.isNonneg_iff {negative : Bool} {x : ℚ} {b : Binary64}
    (h : IsRounded negative x b) :
    b.isNonneg = true ↔ negative = false ∨ b = .finite negative 0 := by
  obtain ⟨u, -, hb⟩ := h
  obtain hu | hu := Nat.lt_or_ge u limit
  · rw [hb, ofUnits_of_lt negative hu]
    cases negative <;> simp [isNonneg]
  · rw [hb, ofUnits_of_le negative hu]
    cases negative <;> simp [isNonneg]

end DeferredOpen.Binary64
