import Criteria.Number.Basic
import Mathlib.Algebra.Ring.Int.Defs
import Mathlib.Algebra.Ring.Nat
import Mathlib.Data.Nat.Log

/-!
Rounding keeps the order: of two whole numbers the lesser one is not rounded to
the greater floating-point number. It may be rounded to the same one, so the
order of the rounded numbers says less than that of the numbers.
-/

set_option autoImplicit false

namespace Criteria.Binary64

variable {num num' den : Nat} {negative : Bool} {x y : Binary64} {i j : Int}

/-! ### Quotients -/

theorem divideToEven_bounds :
    num / den ≤ divideToEven num den ∧ divideToEven num den ≤ num / den + 1 := by
  unfold divideToEven
  dsimp only
  split <;> omega

theorem divideToEven_mono (le : num ≤ num') : divideToEven num den ≤ divideToEven num' den := by
  rcases Nat.lt_or_eq_of_le (Nat.div_le_div_right (c := den) le) with apart | same
  · calc divideToEven num den
      _ ≤ num / den + 1 := divideToEven_bounds.2
      _ ≤ num' / den := apart
      _ ≤ divideToEven num' den := divideToEven_bounds.1
  · -- what is left of the greater number is not less, and decides against rounding down
    have left : num % den ≤ num' % den := by
      have whole := Nat.div_add_mod num den
      have whole' := Nat.div_add_mod num' den
      rw [same] at whole
      omega
    unfold divideToEven
    simp only [same]
    split <;> split <;> simp_all only [Nat.compare_eq_lt, Nat.compare_eq_gt, Nat.compare_eq_eq] <;>
      omega

/-! ### Fields -/

/-- At its scale, a quotient has a significand of 53 bits, or of fewer at the least scale. -/
theorem scaled_bounds (q : Nat) :
    q / 2 ^ (q.log2 - 52) < 2 ^ 53 ∧ (0 < q.log2 - 52 → 2 ^ 52 ≤ q / 2 ^ (q.log2 - 52)) := by
  constructor
  · rw [Nat.div_lt_iff_lt_mul (Nat.two_pow_pos _), ← Nat.pow_add]
    exact Nat.lt_of_lt_of_le Nat.lt_log2_self (Nat.pow_le_pow_right (by decide) (by omega))
  · intro scaled
    have large : 52 ≤ q.log2 := by omega
    rw [Nat.le_div_iff_mul_le (Nat.two_pow_pos _), ← Nat.pow_add, Nat.add_sub_of_le large]
    refine Nat.log2_self_le fun zero => ?_
    simp [zero] at scaled

/-- Of two quotients by one number, the lesser is not rounded to greater fields. -/
theorem nearestField_mono (le : num ≤ num') : nearestField num den ≤ nearestField num' den := by
  have units : num * Nat.pow 2 1074 ≤ num' * Nat.pow 2 1074 := Nat.mul_le_mul_right _ le
  unfold nearestField
  dsimp only
  generalize num * Nat.pow 2 1074 = low at units
  generalize num' * Nat.pow 2 1074 = high at units
  have quotients : low / den ≤ high / den := Nat.div_le_div_right units
  have scales : (low / den).log2 - 52 ≤ (high / den).log2 - 52 := by
    rw [Nat.log2_eq_log_two, Nat.log2_eq_log_two]
    exact Nat.sub_le_sub_right (Nat.log_mono_right quotients) 52
  refine Nat.le_min.2 ⟨Nat.le_trans (Nat.min_le_left _ _) ?_, Nat.min_le_right _ _⟩
  rcases Nat.eq_or_lt_of_le scales with same | apart
  · rw [same]
    exact Nat.add_le_add_left (divideToEven_mono units) _
  · -- the lesser number is carried at most to the next binade, where the greater one is already
    have above := (scaled_bounds (high / den)).2 (Nat.zero_lt_of_lt apart)
    have below := (scaled_bounds (low / den)).1
    rw [Nat.div_div_eq_div_mul] at above below
    calc ((low / den).log2 - 52) * 2 ^ 52 + divideToEven low (den * 2 ^ ((low / den).log2 - 52))
      _ ≤ ((low / den).log2 - 52) * 2 ^ 52 + 2 ^ 53 :=
        Nat.add_le_add_left (Nat.le_trans divideToEven_bounds.2 below) _
      _ ≤ ((high / den).log2 - 52) * 2 ^ 52 + 2 ^ 52 := by omega
      _ ≤ ((high / den).log2 - 52) * 2 ^ 52 +
          divideToEven high (den * 2 ^ ((high / den).log2 - 52)) :=
        Nat.add_le_add_left (Nat.le_trans above divideToEven_bounds.1) _

/-- The bits without the sign, as a number. -/
def field (x : Binary64) : Nat :=
  x.bits.toNat % 2 ^ 63

theorem fraction_lt (x : Binary64) : x.fraction < 2 ^ 52 :=
  Nat.mod_lt _ (Nat.two_pow_pos 52)

theorem field_eq (x : Binary64) : x.field = x.exponentField * 2 ^ 52 + x.fraction := by
  have bound := x.bits.toNat_lt
  simp only [exponentField, fraction, field, Nat.pow_eq]
  omega

theorem magnitude_lt (x : Binary64) : x.magnitude < 2 ^ 52 * 2 ^ x.exponentField := by
  have bound := x.fraction_lt
  unfold magnitude significand scale
  split
  · next least => simpa [least] using bound
  · next normal =>
    have binades : 2 ^ x.exponentField = 2 * 2 ^ (x.exponentField - 1) := by
      rw [← Nat.pow_add_one', Nat.sub_add_cancel (Nat.pos_of_ne_zero normal)]
    rw [binades, ← Nat.mul_assoc]
    refine Nat.mul_lt_mul_of_pos_right ?_ (Nat.two_pow_pos _)
    simp only [Nat.pow_eq]
    omega

theorem le_magnitude (normal : x.exponentField ≠ 0) :
    2 ^ 52 * 2 ^ (x.exponentField - 1) ≤ x.magnitude := by
  unfold magnitude significand scale
  rw [if_neg normal]
  exact Nat.mul_le_mul_right _ (Nat.le_add_right _ _)

/-- Fields, read as numbers, are in the order of what they stand for. -/
theorem magnitude_mono (le : x.field ≤ y.field) : x.magnitude ≤ y.magnitude := by
  rw [field_eq, field_eq] at le
  have bound := x.fraction_lt
  have bound' := y.fraction_lt
  rcases Nat.lt_trichotomy x.exponentField y.exponentField with less | same | more
  · have normal : y.exponentField ≠ 0 := Nat.ne_zero_of_lt less
    calc x.magnitude
      _ ≤ 2 ^ 52 * 2 ^ x.exponentField := Nat.le_of_lt x.magnitude_lt
      _ ≤ 2 ^ 52 * 2 ^ (y.exponentField - 1) :=
        Nat.mul_le_mul_left _ (Nat.pow_le_pow_right (by decide) (Nat.le_sub_one_of_lt less))
      _ ≤ y.magnitude := le_magnitude normal
  · have fractions : x.fraction ≤ y.fraction := by omega
    unfold magnitude significand scale
    rw [same]
    refine Nat.mul_le_mul_right _ ?_
    split <;> omega
  · omega

/-! ### Rounded numbers -/

theorem field_nearest : (nearest negative num den).field = nearestField num den ∧
    (nearest negative num den).negative = negative := by
  have bound : nearestField num den ≤ 2047 * 2 ^ 52 := Nat.min_le_right _ _
  have sign : (if negative then Nat.pow 2 63 else 0) = if negative then 2 ^ 63 else 0 := rfl
  unfold nearest field Binary64.negative
  rw [sign, UInt64.toNat_ofNat', Nat.pow_eq]
  cases negative
  · simp; omega
  · simp; omega

/-- Rounding goes no further than to infinity. -/
theorem isNaN_nearest : (nearest negative num den).isNaN = false := by
  have bound : nearestField num den ≤ 2047 * 2 ^ 52 := Nat.min_le_right _ _
  have parts := field_eq (nearest negative num den)
  rw [field_nearest.1] at parts
  simp only [isNaN, Bool.and_eq_false_iff, beq_eq_false_iff_ne, bne_eq_false_iff_eq]
  omega

theorem isNaN_ofInt (i : Int) : (ofInt i).isNaN = false :=
  isNaN_nearest

theorem value_ofInt (i : Int) :
    (ofInt i).value = if i < 0 then -((ofInt i).magnitude : Int) else (ofInt i).magnitude := by
  have sign : (ofInt i).negative = decide (i < 0) := field_nearest.2
  simp [value, sign]

/-- Of two whole numbers, the lesser is not rounded to the greater value. -/
theorem value_ofInt_mono (le : i ≤ j) : (ofInt i).value ≤ (ofInt j).value := by
  have grows {i j : Int} (le : i.natAbs ≤ j.natAbs) : (ofInt i).magnitude ≤ (ofInt j).magnitude := by
    refine magnitude_mono ?_
    rw [ofInt, ofInt, field_nearest.1, field_nearest.1]
    exact nearestField_mono le
  rw [value_ofInt, value_ofInt]
  by_cases below : i < 0 <;> by_cases below' : j < 0 <;> simp only [below, below', if_true, if_false]
  · exact Int.neg_le_neg (Int.ofNat_le.2 (grows (by omega)))
  · omega
  · omega
  · exact Int.ofNat_le.2 (grows (by omega))

end Criteria.Binary64
