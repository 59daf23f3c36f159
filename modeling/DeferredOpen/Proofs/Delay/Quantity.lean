import DeferredOpen.Proofs.Delay.Accepted
import DeferredOpen.Proofs.Number.Overflow

/-!
# The quantity that a delay text asks for

The number of a delay text times its suffix is an exact rational of seconds. What the reader makes
of it has been rounded five times at most: once for the number, twice for the suffix, and once for
each product. `scaled` makes the two products with exponents that are not bounded; the delay is the
whole microseconds in it, as many as 64 bits hold.
-/

namespace DeferredOpen

open Binary64 (one limit IsNearest IsRounded Held Near StandsFor nearest roundoff)

namespace Binary64

theorem held_mul_one {n : Nat} (h : n < 2 ^ 53) : Held (n * one) := by
  have hone : one = 2 ^ 1074 := by decide +kernel
  exact ⟨n, 1074, h, congrArg (n * ·) hone⟩

/-- A whole number that 53 bits hold is not rounded. -/
theorem ofDecimal_natCast {n : Nat} (h : n < 2 ^ 53) :
    ofDecimal false n 0 = .finite false (n * one) := by
  have hlimit : n * one < limit :=
    (Nat.mul_le_mul_right one h.le).trans_lt (by decide +kernel)
  have hnearest : IsNearest ((n : ℚ) * 10 ^ (0 : ℤ) * one) (n * one) := by
    have hexact : (n : ℚ) * 10 ^ (0 : ℤ) * one = ((n * one : Nat) : ℚ) := by
      rw [zpow_zero, mul_one, Nat.cast_mul]
    rw [hexact]
    exact (held_mul_one h).isNearest
  exact (isRounded_ofDecimal false n 0).unique
    ⟨n * one, hnearest, (ofUnits_of_lt false hlimit).symm⟩

end Binary64

/-- The rational that a literal spells. -/
def Literal.number (l : Literal) : ℚ := if l.negative then -l.magnitude else l.magnitude

theorem Literal.number_of_not_negative {l : Literal} (h : l.negative = false) :
    l.number = l.magnitude := by
  rw [number, h]
  exact if_neg Bool.false_ne_true

theorem Literal.number_of_negative {l : Literal} (h : l.negative = true) :
    l.number = -l.magnitude := by
  rw [number, h]
  exact if_pos rfl

theorem Literal.number_eq_magnitude {l : Literal} (h : 0 ≤ l.number) : l.number = l.magnitude := by
  by_cases hnegative : l.negative = true
  · have hzero : l.magnitude = 0 := by
      rw [l.number_of_negative hnegative] at h
      linarith [l.magnitude_nonneg]
    rw [l.number_of_negative hnegative, hzero, neg_zero]
  · exact l.number_of_not_negative (Bool.eq_false_iff.mpr hnegative)

namespace Delay

def Suffix.seconds : Suffix → ℚ
  | .bare => 1
  | .degree d => 10 ^ d.power
  | .unit u _ => u.seconds
  | .scaled d u => 10 ^ d.power * u.seconds

/-- A text asks for a number of microseconds: its literal times its suffix, without any error. -/
def Asks (cs : List Char) (x : ℚ) : Prop :=
  ∃ number l s, Parts cs number l s ∧ x = l.number * s.seconds * 10 ^ 6

theorem Asks.unique {cs : List Char} {x y : ℚ} (h : Asks cs x) (h' : Asks cs y) : x = y := by
  obtain ⟨number, l, s, hparts, rfl⟩ := h
  obtain ⟨number', l', s', hparts', rfl⟩ := h'
  obtain ⟨-, rfl, rfl⟩ := hparts.unique hparts'
  rfl

/-! What a suffix is rounded to. -/

theorem Degree.power_bounds (d : Degree) :
    (1 / 10 ^ 9 : ℚ) ≤ 10 ^ d.power ∧ (10 : ℚ) ^ d.power ≤ 1 := by
  cases d <;> norm_num [Degree.power]

theorem TimeUnit.seconds_bounds (u : TimeUnit) : 1 ≤ u.seconds ∧ u.seconds ≤ 86400 := by
  cases u <;> decide

theorem Suffix.seconds_bounds (s : Suffix) :
    (1 / 10 ^ 9 : ℚ) ≤ s.seconds ∧ s.seconds ≤ 86400 := by
  have hunit (u : TimeUnit) : (1 : ℚ) ≤ u.seconds ∧ (u.seconds : ℚ) ≤ 86400 := by
    exact_mod_cast u.seconds_bounds
  cases s with
  | bare => norm_num [seconds]
  | degree d =>
    obtain ⟨hlower, hupper⟩ := d.power_bounds
    exact ⟨hlower, hupper.trans (by norm_num)⟩
  | unit u _ =>
    obtain ⟨hlower, hupper⟩ := hunit u
    exact ⟨le_trans (by norm_num) hlower, hupper⟩
  | scaled d u =>
    obtain ⟨hlower, hupper⟩ := d.power_bounds
    obtain ⟨hone, hday⟩ := hunit u
    rw [seconds]
    constructor
    · exact hlower.trans (le_mul_of_one_le_right (by linarith) hone)
    · exact (mul_le_of_le_one_left (by linarith) hupper).trans hday

theorem Suffix.seconds_pos (s : Suffix) : 0 < s.seconds := by
  have hlower := s.seconds_bounds.1
  linarith

theorem TimeUnit.factor_eq (u : TimeUnit) : u.factor = .finite false (u.seconds * one) := by
  have hupper := u.seconds_bounds.2
  exact Binary64.ofDecimal_natCast (by omega)

theorem two_pow_le_one : (2 : ℚ) ^ 200 ≤ one := by
  exact_mod_cast (by decide +kernel : 2 ^ 200 ≤ one)

theorem Degree.exists_factor (d : Degree) :
    ∃ a, d.factor = .finite false a ∧ Near 1 0 (10 ^ d.power) (a / one) := by
  obtain ⟨hlower, hupper⟩ := d.power_bounds
  have hrounded : IsRounded false (10 ^ d.power) d.factor := by
    have hdecimal := Binary64.isRounded_ofDecimal false 1 d.power
    rwa [Nat.cast_one, one_mul] at hdecimal
  have hunits := mul_le_mul hlower two_pow_le_one (by positivity) (by positivity)
  exact hrounded.exists_finite (le_trans (by norm_num) hunits) (hupper.trans (by norm_num))

/-- The multiplier of a suffix has a count of units that two roundings have led to. -/
structure Suffix.Counts (s : Suffix) (c : Nat) : Prop where
  multiplier : s.multiplier = .finite false c
  near : Near 2 0 s.seconds (c / one)

/-- Whole seconds are not rounded. -/
theorem near_whole_seconds (n : Nat) : Near 2 0 n (((n * one : Nat) : ℚ) / one) := by
  have hone : (0 : ℚ) < one := by exact_mod_cast Binary64.one_pos
  rw [Nat.cast_mul, mul_div_cancel_right₀ _ hone.ne']
  exact (Near.refl _).mono (Nat.cast_nonneg n) (by decide) (le_refl 0)

namespace Suffix

theorem counts_bare : Suffix.bare.Counts (1 * one) := by
  refine ⟨Binary64.ofDecimal_natCast (by decide), ?_⟩
  have hnear := near_whole_seconds 1
  rwa [Nat.cast_one] at hnear

theorem counts_unit (u : TimeUnit) (h : u ≠ .minute) : (unit u h).Counts (u.seconds * one) :=
  ⟨u.factor_eq, near_whole_seconds u.seconds⟩

theorem exists_counts_degree (d : Degree) : ∃ c, (degree d).Counts c := by
  obtain ⟨a, ha, hnear⟩ := d.exists_factor
  exact ⟨a, ha, hnear.mono (zpow_nonneg (by norm_num) _) (by decide) (le_refl 0)⟩

/-- The product of a degree and a unit is rounded a second time. -/
theorem exists_counts_scaled (d : Degree) (u : TimeUnit) : ∃ c, (scaled d u).Counts c := by
  have hone : (0 : ℚ) < one := by exact_mod_cast Binary64.one_pos
  obtain ⟨a, ha, hnear⟩ := d.exists_factor
  obtain ⟨hlower, hupper⟩ := d.power_bounds
  have hseconds : (1 : ℚ) ≤ u.seconds ∧ (u.seconds : ℚ) ≤ 86400 := by
    exact_mod_cast u.seconds_bounds
  have hproduct : Near 1 0 (10 ^ d.power * u.seconds) (a / one * u.seconds) := by
    have hmul := hnear.mul (Near.refl (u.seconds : ℚ)) (by linarith) (by linarith)
    rwa [zero_mul] at hmul
  have hrounded : IsRounded false (a / one * u.seconds)
      (.round false (a * (u.seconds * one)) one) := by
    refine Binary64.isRounded_round false Binary64.one_pos ?_
    push_cast
    field_simp
  have hsmall : (2 : ℚ) ^ 52 ≤ a / one * u.seconds * one := by
    have hfactor : (1 / 10 ^ 10 : ℚ) ≤ a / one * u.seconds := by
      have hless := hproduct.lower
      rw [pow_one, roundoff] at hless
      nlinarith
    have hunits := mul_le_mul hfactor two_pow_le_one (by positivity) (by linarith)
    exact le_trans (by norm_num) hunits
  have hlarge : (a / one * u.seconds : ℚ) ≤ 2 ^ 100 := by
    have hmore := hproduct.upper
    rw [pow_one, roundoff] at hmore
    nlinarith
  obtain ⟨c, hc, hround⟩ := hrounded.exists_finite hsmall hlarge
  refine ⟨c, ?_, ?_⟩
  · rw [multiplier, ha, u.factor_eq]
    change Binary64.mul (.finite false a) (.finite false (u.seconds * one)) = _
    rw [Binary64.mul, Bool.xor_false, hc]
  · have htrans := hproduct.trans hround (le_refl 0)
    rwa [zero_mul, zero_add] at htrans

theorem exists_counts (s : Suffix) : ∃ c, s.Counts c := by
  cases s with
  | bare => exact ⟨_, counts_bare⟩
  | degree d => exact exists_counts_degree d
  | unit u h => exact ⟨_, counts_unit u h⟩
  | scaled d u => exact exists_counts_scaled d u

end Suffix

end Delay

end DeferredOpen
