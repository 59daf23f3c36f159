import DeferredOpen.Proofs.Delay.Microseconds

/-!
# How accurate a delay is

A delay is off from the quantity that its text asks for by less than one microsecond, which is cut
off, and the 2^50th part, which the roundings may cost. Literals that are rounded to zero or to
infinity are no exception: what is rounded to zero asks for less than a microsecond, and what is
rounded to infinity for more than 64 bits hold.
-/

namespace DeferredOpen

open Binary64 (one Near roundoff)

namespace Delay

variable {cs number : List Char} {l : Literal} {s : Suffix} {d : Duration} {x y : ℚ}

theorem number_nonneg_of_asked (h : 0 ≤ l.number * s.seconds * 10 ^ 6) : 0 ≤ l.number := by
  have hpos : 0 < s.seconds * 10 ^ 6 := mul_pos s.seconds_pos (by norm_num)
  rw [mul_assoc] at h
  exact nonneg_of_mul_nonneg_left h hpos

/-- What a text asks for and the count that it comes to are five roundings apart. -/
theorem exists_near_of_accepted (h : read cs = .accepted d) (hx : Asks cs x) (h₀ : 0 ≤ x) :
    ∃ m : Nat, Near 5 (1 / 2 ^ 100) x (m / one : ℚ) ∧
      d = .ofMicroseconds (min (m / one) (2 ^ 64 - 1)) := by
  obtain ⟨number, l, s, hparts, rfl⟩ := hx
  obtain ⟨c, hc⟩ := s.exists_counts
  obtain ⟨u, hu, -, -, hd⟩ := hparts.exists_units hc h
  refine ⟨millionfold u c, ?_, hd⟩
  rw [Literal.number_eq_magnitude (number_nonneg_of_asked h₀)]
  exact hc.near_millionfold hu l.magnitude_nonneg

/-- The whole ones in a count are less than one from the number with this count. -/
theorem div_one_bounds (m : Nat) :
    ((m / one : Nat) : ℚ) ≤ m / one ∧ (m / one : ℚ) < (m / one : Nat) + 1 := by
  have hone : (0 : ℚ) < one := by exact_mod_cast Binary64.one_pos
  refine ⟨Nat.cast_div_le, ?_⟩
  rw [div_lt_iff₀ hone, mul_comm]
  exact_mod_cast Nat.lt_mul_div_succ m Binary64.one_pos

end Delay

end DeferredOpen
