import DeferredOpen.Proofs.Number.Nearest
import DeferredOpen.Proofs.Number.Spelling
import Mathlib.Algebra.Order.Field.Power

/-!
# The value of a literal

`Literal.magnitude` is the exact rational that a literal spells, its sign left out, and
`Literal.value` is that rational rounded. The bounds beyond which no power of ten is computed are
safe: what lies under the lower one is zero, and from the upper one on everything is infinite.
-/

namespace DeferredOpen.Literal

open Binary64 (one limit IsRounded)

/-- The rational that a literal spells, without its sign. -/
def magnitude (l : Literal) : ℚ := l.coefficient * 10 ^ l.scale

theorem magnitude_nonneg (l : Literal) : 0 ≤ l.magnitude := by
  unfold magnitude
  positivity

theorem foldl_digits_lt {ds : List Char} (h : IsDigits ds) (n : Nat) :
    ds.foldl (fun n d => n * 10 + (d.toNat - '0'.toNat)) n < (n + 1) * 10 ^ ds.length := by
  induction ds generalizing n with
  | nil => simp
  | cons d ds ih =>
    have hd : d.toNat - '0'.toNat ≤ 9 := by
      have hdigit := h d (by simp)
      simp only [Char.isDigit, Bool.and_eq_true, decide_eq_true_eq] at hdigit
      exact Nat.sub_le_sub_right (UInt32.le_iff_toNat_le.mp hdigit.2) 48
    have hrest := ih (fun c hc => h c (List.mem_cons_of_mem _ hc))
      (n * 10 + (d.toNat - '0'.toNat))
    rw [List.foldl_cons, List.length_cons]
    calc _ < (n * 10 + (d.toNat - '0'.toNat) + 1) * 10 ^ ds.length := hrest
      _ ≤ ((n + 1) * 10) * 10 ^ ds.length := Nat.mul_le_mul_right _ (by omega)
      _ = (n + 1) * 10 ^ (ds.length + 1) := by ring

/-- The coefficient stays under the power of ten that its digits count. -/
theorem coefficient_lt {l : Literal} (h : IsDigits (l.whole ++ l.fraction)) :
    l.coefficient < 10 ^ (l.whole ++ l.fraction).length := by
  simpa [coefficient, digitsValue] using foldl_digits_lt h 0

theorem limit_le {n : Nat} (h : 310 ≤ n) : limit ≤ 10 ^ n * one := by
  obtain ⟨m, hm, hbase⟩ : ∃ m ≤ 310, limit ≤ 10 ^ m * one := ⟨310, le_refl _, by decide +kernel⟩
  exact hbase.trans (Nat.mul_le_mul_right _ (Nat.pow_le_pow_right (by decide) (hm.trans h)))

theorem two_mul_one_le {n : Nat} (h : 330 ≤ n) : 2 * one ≤ 10 ^ n := by
  obtain ⟨m, hm, hbase⟩ : ∃ m ≤ 330, 2 * one ≤ 10 ^ m := ⟨330, le_refl _, by decide +kernel⟩
  exact hbase.trans (Nat.pow_le_pow_right (by decide) (hm.trans h))

/-- A literal whose digits all stand behind the 330th place is under half a unit. -/
theorem magnitude_small {l : Literal} (h : IsDigits (l.whole ++ l.fraction))
    (hs : (l.whole ++ l.fraction).length + l.scale < -330) : l.magnitude * one ≤ 1 / 2 := by
  obtain ⟨n, hn⟩ := Int.eq_ofNat_of_zero_le
    (show 0 ≤ -((l.whole ++ l.fraction).length + l.scale) by omega)
  have hscale : l.scale = -(n : ℤ) - (l.whole ++ l.fraction).length := by omega
  have hc : (l.coefficient : ℚ) ≤ 10 ^ (l.whole ++ l.fraction).length := by
    exact_mod_cast (coefficient_lt h).le
  have hone : (2 : ℚ) * one ≤ 10 ^ n := by exact_mod_cast two_mul_one_le (n := n) (by omega)
  have hp : (0 : ℚ) < 10 ^ n := by positivity
  have hl : (0 : ℚ) < 10 ^ (l.whole ++ l.fraction).length := by positivity
  calc l.magnitude * one
      = l.coefficient / 10 ^ (l.whole ++ l.fraction).length * (one / 10 ^ n) := by
        rw [magnitude, hscale, zpow_sub₀ (by norm_num), zpow_neg, zpow_natCast, zpow_natCast]
        ring
    _ ≤ 1 * (one / 10 ^ n) :=
        mul_le_mul_of_nonneg_right ((div_le_one hl).mpr hc)
          (div_nonneg (Nat.cast_nonneg _) hp.le)
    _ ≤ 1 / 2 := by
        rw [one_mul, div_le_div_iff₀ hp two_pos]
        linarith

/-- A literal that is not zero and scaled by more than 310 places is past the limit. -/
theorem magnitude_large {l : Literal} (h : l.coefficient ≠ 0) (hs : 310 < l.scale) :
    (limit : ℚ) ≤ l.magnitude * one := by
  obtain ⟨n, hn⟩ := Int.eq_ofNat_of_zero_le (show 0 ≤ l.scale by omega)
  have hc : (1 : ℚ) ≤ l.coefficient := by exact_mod_cast Nat.one_le_iff_ne_zero.mpr h
  have hlimit : (limit : ℚ) ≤ 10 ^ n * one := by exact_mod_cast limit_le (n := n) (by omega)
  rw [magnitude, hn, zpow_natCast]
  refine hlimit.trans (mul_le_mul_of_nonneg_right ?_ (Nat.cast_nonneg _))
  exact le_mul_of_one_le_left (by positivity) hc

/-- The value of a literal is the rational that it spells, rounded. -/
theorem isRounded_value {l : Literal} (h : IsDigits (l.whole ++ l.fraction)) :
    IsRounded l.negative l.magnitude l.value := by
  have hdecimal : IsRounded l.negative l.magnitude
      (.ofDecimal l.negative l.coefficient l.scale) :=
    Binary64.isRounded_ofDecimal l.negative l.coefficient l.scale
  unfold value
  split
  · next hzero =>
    refine Binary64.isRounded_zero l.negative l.magnitude_nonneg ?_
    obtain hc | hs := hzero
    · rw [magnitude, hc, Nat.cast_zero, zero_mul, zero_mul]
      norm_num
    · exact magnitude_small h hs
  · next hzero =>
    split
    · next hs =>
      have hc : l.coefficient ≠ 0 := fun hc => hzero (.inl hc)
      rwa [hdecimal.eq_infinite (magnitude_large hc hs)] at hdecimal
    · exact hdecimal

theorem Spells.isDigits {l : Literal} {cs : List Char} (h : l.Spells cs) :
    IsDigits (l.whole ++ l.fraction) := by
  obtain ⟨-, hm, -⟩ := h
  intro c hc
  obtain hc | hc := List.mem_append.mp hc
  · cases hm with
    | plain hwhole _ _ => exact hwhole c hc
    | divided hwhole _ _ => exact hwhole c hc
  · cases hm with
    | plain _ _ hfraction => simp [hfraction] at hc
    | divided _ hfraction _ => exact hfraction c hc

end DeferredOpen.Literal
