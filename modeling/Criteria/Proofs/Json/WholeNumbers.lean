import Criteria.Condition.Basic
import Criteria.Proofs.Json.Order
import Criteria.Proofs.Number.Nearest

/-!
How whole numbers compare. Those of the signed 64-bit range compare exactly; with
a number beyond it, another one may be taken for equal that is rounded to the same
floating-point number. This happens to neighbours only, and no two numbers ever
compare the wrong way round.
-/

set_option autoImplicit false

namespace Criteria

namespace Comparison

variable {op : Comparison} {i j : Int}

/-- The comparison of whole numbers that the operator stands for. -/
def OnWhole : Comparison → Int → Int → Prop
  | .equal, i, j => i = j
  | .notEqual, i, j => i ≠ j
  | .less, i, j => i < j
  | .atMost, i, j => i ≤ j
  | .greater, i, j => j < i
  | .atLeast, i, j => j ≤ i

theorem holds_compare_iff : op.holds (some (compare i j)) = true ↔ op.OnWhole i j := by
  rcases Int.lt_trichotomy i j with less | same | more
  · rw [Int.compare_eq_lt.2 less]
    cases op <;> simp [holds, OnWhole] <;> omega
  · rw [Int.compare_eq_eq.2 same]
    cases op <;> simp [holds, OnWhole] <;> omega
  · rw [Int.compare_eq_gt.2 more]
    cases op <;> simp [holds, OnWhole] <;> omega

end Comparison

namespace Number

variable {i j : Int}

/-- The number is in the signed 64-bit range. -/
def IsInt64 (i : Int) : Prop :=
  -2 ^ 63 ≤ i ∧ i < 2 ^ 63

theorem int64?_of_isInt64 (small : IsInt64 i) : (int i).int64? = some i :=
  if_pos small

theorem int64?_of_not_isInt64 (large : ¬ IsInt64 i) : (int i).int64? = none :=
  if_neg large

theorem compare?_int_eq (i j : Int) : (int i).compare? (int j) =
    some (match (int i).int64?, (int j).int64? with
      | some i, some j => compare i j
      | _, _ => compare (Binary64.ofInt i).value (Binary64.ofInt j).value) :=
  compare?_eq (m := int i) (n := int j) (Binary64.isNaN_ofInt i) (Binary64.isNaN_ofInt j)

/-- Two whole numbers are different and not both in the signed 64-bit range, and are rounded to one
floating-point number. -/
structure Merges (i j : Int) : Prop where
  different : i ≠ j
  large : ¬ (IsInt64 i ∧ IsInt64 j)
  same : (Binary64.ofInt i).value = (Binary64.ofInt j).value

theorem compare?_of_large (large : ¬ (IsInt64 i ∧ IsInt64 j)) : (int i).compare? (int j) =
    some (compare (Binary64.ofInt i).value (Binary64.ofInt j).value) := by
  rw [compare?_int_eq]
  by_cases left : IsInt64 i
  · rw [int64?_of_not_isInt64 fun right => large ⟨left, right⟩]
    cases (int i).int64? <;> rfl
  · simp only [int64?_of_not_isInt64 left]

theorem compare?_of_not_merges (apart : ¬ Merges i j) :
    (int i).compare? (int j) = some (compare i j) := by
  by_cases small : IsInt64 i ∧ IsInt64 j
  · simp only [compare?_int_eq, int64?_of_isInt64 small.1, int64?_of_isInt64 small.2]
  · rw [compare?_of_large small]
    apply congrArg some
    -- rounding keeps the order, so numbers of different values are in the order of these
    rcases Int.lt_trichotomy i j with less | rfl | more
    · have distinct : (Binary64.ofInt i).value ≠ (Binary64.ofInt j).value := fun same =>
        apart ⟨Int.ne_of_lt less, small, same⟩
      have rounded := Binary64.value_ofInt_mono (Int.le_of_lt less)
      rw [Int.compare_eq_lt.2 less, Int.compare_eq_lt]
      omega
    · rw [Int.compare_eq_eq.2 rfl, Int.compare_eq_eq.2 rfl]
    · have distinct : (Binary64.ofInt i).value ≠ (Binary64.ofInt j).value := fun same =>
        apart ⟨Int.ne_of_gt more, small, same⟩
      have rounded := Binary64.value_ofInt_mono (Int.le_of_lt more)
      rw [Int.compare_eq_gt.2 more, Int.compare_eq_gt]
      omega

theorem Merges.compare?_eq (merges : Merges i j) : (int i).compare? (int j) = some .eq := by
  rw [compare?_of_large merges.large, Int.compare_eq_eq.2 merges.same]

end Number

namespace JsonTree

open Number

/-- Whole numbers of 64 bits compare exactly, and every comparison holds of them as it should, unless
rounding merges them. Numbers that are merged are taken for equal; they are at most `2^11` apart. -/
theorem compare?_whole {i j : Int} (low : -2 ^ 63 ≤ i) (high : i < 2 ^ 64) (low' : -2 ^ 63 ≤ j)
    (high' : j < 2 ^ 64) :
    (¬ Merges i j →
      compare? (.number (.int i)) (.number (.int j)) = some (compare i j) ∧
      ∀ op : Comparison, op.holds (compare? (.number (.int i)) (.number (.int j))) = true ↔
        op.OnWhole i j) ∧
    (Merges i j → compare? (.number (.int i)) (.number (.int j)) = some .eq ∧
      (i - j).natAbs ≤ 2 ^ 11) := by
  constructor
  · intro apart
    have exact_order : compare? (.number (.int i)) (.number (.int j)) = some (compare i j) :=
      compare?_of_not_merges apart
    refine ⟨exact_order, fun op => ?_⟩
    rw [exact_order]
    exact Comparison.holds_compare_iff
  · intro merges
    exact ⟨merges.compare?_eq,
      Binary64.natAbs_sub_le_of_value_eq (by omega) (by omega) merges.same⟩

/-- The two greatest numbers are merged. Numbers as far apart as the range reaches are not. -/
theorem compare?_whole_greatest :
    (compare? (.number (.int (2 ^ 64 - 1))) (.number (.int (2 ^ 64 - 2))) = some .eq ∧
      ((2 ^ 64 - 1 : Int) - (2 ^ 64 - 2)).natAbs ≤ 2 ^ 11) ∧
    compare? (.number (.int (2 ^ 64 - 1))) (.number (.int (-2 ^ 63))) = some .gt := by
  have merges : Merges (2 ^ 64 - 1) (2 ^ 64 - 2) :=
    ⟨by decide, fun small => absurd small.1.2 (by decide), by decide +kernel⟩
  have apart : ¬ Merges (2 ^ 64 - 1) (-2 ^ 63) := fun merges => absurd merges.same (by decide +kernel)
  exact ⟨(compare?_whole (by decide) (by decide) (by decide) (by decide)).2 merges,
    ((compare?_whole (by decide) (by decide) (by decide) (by decide)).1 apart).1⟩

/-- The greatest number is taken for equal to the one before it. -/
theorem compare?_whole_inexact :
    compare? (.number (.int 18446744073709551615)) (.number (.int 18446744073709551614)) ≠
      some (compare (18446744073709551615 : Int) 18446744073709551614) ∧
    Comparison.equal.holds (compare? (.number (.int 18446744073709551615))
      (.number (.int 18446744073709551614))) = true := by
  decide +kernel

end JsonTree

end Criteria
