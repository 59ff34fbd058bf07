import Criteria.Proofs.Number.Rounding

/-!
How far rounding moves a whole number. A number with a scale is the nearest
multiple of the unit of its last place, so it is at most half a unit away. Whole
numbers of 64 bits that are rounded to one value are therefore close together.
-/

set_option autoImplicit false

namespace Criteria.Binary64

variable {num den s q : Nat} {x : Binary64} {i j : Int}

/-- The nearest whole number is at most a half away from the quotient. -/
theorem divideToEven_error (num : Nat) (positive : 0 < den) :
    2 * (divideToEven num den * den) ≤ 2 * num + den ∧
      2 * num ≤ 2 * (divideToEven num den * den) + den := by
  have whole := Nat.div_add_mod num den
  have rest := Nat.mod_lt num positive
  rw [Nat.mul_comm] at whole
  unfold divideToEven
  dsimp only
  split
  · next below =>
    rw [Nat.compare_eq_lt] at below
    omega
  · next above =>
    rw [Nat.compare_eq_gt] at above
    rw [Nat.add_one_mul (num / den) den]
    omega
  · next tie =>
    rw [Nat.compare_eq_eq] at tie
    rcases Nat.mod_two_eq_zero_or_one (num / den) with even | odd
    · rw [even, Nat.add_zero]
      omega
    · rw [odd, Nat.add_one_mul (num / den) den]
      omega

/-- What a scale and a significand of at most 53 bits stand for, the carry into the next binade
included. -/
theorem magnitude_of_field (made : x.field = s * 2 ^ 52 + q) (bound : q ≤ 2 ^ 53)
    (normal : 0 < s → 2 ^ 52 ≤ q) : x.magnitude = q * 2 ^ s := by
  have parts := x.field_eq
  have fraction := x.fraction_lt
  rw [made] at parts
  unfold magnitude significand scale
  rw [Nat.pow_eq, Nat.pow_eq]
  rcases Nat.lt_or_ge q (2 ^ 52) with least | large
  · obtain rfl : s = 0 := Nat.eq_zero_of_not_pos fun scaled => Nat.not_le_of_lt least (normal scaled)
    have exponent : x.exponentField = 0 := by omega
    rw [if_pos exponent, exponent]
    congr 1
    omega
  · have normal : x.exponentField ≠ 0 := by omega
    rw [if_neg normal]
    rcases Nat.lt_or_ge q (2 ^ 53) with inside | carried
    · have exponent : x.exponentField - 1 = s := by omega
      have significand : 2 ^ 52 + x.fraction = q := by omega
      rw [exponent, significand]
    · have exponent : x.exponentField - 1 = s + 1 := by omega
      have significand : 2 ^ 52 + x.fraction = 2 ^ 52 := by omega
      have full : q = 2 ^ 52 * 2 := by omega
      rw [exponent, significand, full, Nat.mul_assoc, ← Nat.pow_succ']

/-- The number one, as a multiple of the least positive number. -/
def one : Nat :=
  Nat.pow 2 1074

theorem one_pos : 0 < one := by
  decide +kernel

theorem nearestField_whole (n : Nat) : nearestField n 1 =
    min (((n * one).log2 - 52) * 2 ^ 52 + divideToEven (n * one) (2 ^ ((n * one).log2 - 52)))
      (2047 * 2 ^ 52) := by
  unfold nearestField infinityField one
  dsimp only
  rw [Nat.div_one, Nat.one_mul]
  rfl

theorem log2_units_lt {n : Nat} (small : n < 2 ^ 64) : (n * one).log2 < 1138 := by
  rcases Nat.eq_zero_or_pos n with rfl | positive
  · rw [Nat.zero_mul, Nat.log2_zero]
    omega
  · have nonzero : n * one ≠ 0 := Nat.ne_of_gt (Nat.mul_pos positive one_pos)
    rw [Nat.log2_lt nonzero]
    exact Nat.lt_of_lt_of_eq (Nat.mul_lt_mul_of_pos_right small one_pos) (by decide +kernel)

/-- A whole number of 64 bits is rounded to a multiple of a unit that is no greater than `2^11`. -/
theorem magnitude_ofInt (small : i.natAbs < 2 ^ 64) : ∃ s ≤ 1085,
    (ofInt i).magnitude = divideToEven (i.natAbs * one) (2 ^ s) * 2 ^ s := by
  have few := log2_units_lt small
  have bounds := scaled_bounds (i.natAbs * one)
  have error := @divideToEven_bounds (i.natAbs * one) (2 ^ ((i.natAbs * one).log2 - 52))
  refine ⟨(i.natAbs * one).log2 - 52, by omega, magnitude_of_field ?_ ?_ ?_⟩
  · rw [ofInt, field_nearest.1, nearestField_whole]
    apply Nat.min_eq_left
    omega
  · omega
  · intro scaled
    exact Nat.le_trans (bounds.2 scaled) error.1

/-- Rounding moves a whole number of 64 bits by `2^10` at most. -/
theorem magnitude_ofInt_error (small : i.natAbs < 2 ^ 64) :
    (ofInt i).magnitude ≤ (i.natAbs + 2 ^ 10) * one ∧
      i.natAbs * one ≤ (ofInt i).magnitude + 2 ^ 10 * one := by
  obtain ⟨s, bound, rounded⟩ := magnitude_ofInt small
  have error := divideToEven_error (i.natAbs * one) (Nat.two_pow_pos s)
  rw [← rounded] at error
  have half : 2 ^ s ≤ 2 * (2 ^ 10 * one) :=
    Nat.le_trans (Nat.pow_le_pow_right Nat.two_pos bound) (by decide +kernel)
  rw [Nat.add_mul]
  omega

/-- Whole numbers of 64 bits that are rounded to one value are at most `2^11` apart. -/
theorem natAbs_sub_le_of_value_eq (small : i.natAbs < 2 ^ 64) (small' : j.natAbs < 2 ^ 64)
    (same : (ofInt i).value = (ofInt j).value) : (i - j).natAbs ≤ 2 ^ 11 := by
  have first := magnitude_ofInt_error small
  have second := magnitude_ofInt_error small'
  rw [value_ofInt, value_ofInt] at same
  have close {m n : Nat} (le : m * one ≤ n * one) : m ≤ n := Nat.le_of_mul_le_mul_right le one_pos
  have near := @close i.natAbs (j.natAbs + 2 ^ 11)
  have near' := @close j.natAbs (i.natAbs + 2 ^ 11)
  have zero := @close i.natAbs (2 ^ 10)
  have zero' := @close j.natAbs (2 ^ 10)
  rw [Nat.add_mul] at near near' first second
  split at same <;> split at same <;> omega

end Criteria.Binary64
