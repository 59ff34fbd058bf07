import Criteria.Proofs.Text.Identifier
import Criteria.Proofs.Text.Utf8
import Mathlib.Algebra.Ring.Nat

/-! Decimal digits: their bytes, the number that they spell, and its order. -/

set_option autoImplicit false

namespace Criteria

namespace Digits

variable {c d : Char} {cs ds : List Char}

theorem utf8EncodeChar_eq (digit : c.isDigit = true) :
    String.utf8EncodeChar c = [UInt8.ofNat c.toNat] :=
  utf8EncodeChar_of_ascii (by have bounds := isDigit_iff_code.1 digit; omega)

theorem ofDigitChars_cons (c : Char) (cs : List Char) :
    Nat.ofDigitChars 10 (c :: cs) 0 =
      10 ^ cs.length * (c.toNat - 48) + Nat.ofDigitChars 10 cs 0 := by
  rw [Nat.ofDigitChars_cons, Nat.ofDigitChars_eq_ofDigitChars_zero, Nat.mul_zero, Nat.zero_add]
  rfl

theorem ofDigitChars_lt (digits : ∀ c ∈ cs, c.isDigit = true) :
    Nat.ofDigitChars 10 cs 0 < 10 ^ cs.length := by
  induction cs with
  | nil => simp
  | cons c rest ih =>
    have tail := ih fun other member => digits other (List.mem_cons_of_mem c member)
    have head : c.toNat - 48 ≤ 9 := by
      have bounds := isDigit_iff_code.1 (digits c List.mem_cons_self)
      omega
    have scaled : 10 ^ rest.length * (c.toNat - 48) ≤ 10 ^ rest.length * 9 :=
      Nat.mul_le_mul_left _ head
    rw [ofDigitChars_cons, List.length_cons, Nat.pow_succ]
    omega

/-- Equally long numerals are in the order of their numbers. -/
theorem compare_utf8_of_lt (left : ∀ c ∈ cs, c.isDigit = true)
    (right : ∀ d ∈ ds, d.isDigit = true) (same : cs.length = ds.length)
    (less : Nat.ofDigitChars 10 cs 0 < Nat.ofDigitChars 10 ds 0) :
    compare (cs.flatMap String.utf8EncodeChar) (ds.flatMap String.utf8EncodeChar) = .lt := by
  -- the first digits decide, unless they are the same
  induction cs generalizing ds with
  | nil =>
    obtain rfl := List.length_eq_zero_iff.1 same.symm
    exact absurd less (Nat.lt_irrefl _)
  | cons c cs ih =>
    cases ds with
    | nil => cases same
    | cons d ds =>
      have lengths : cs.length = ds.length := Nat.succ.inj same
      have restLeft : ∀ c ∈ cs, c.isDigit = true :=
        fun other member => left other (List.mem_cons_of_mem c member)
      have restRight : ∀ d ∈ ds, d.isDigit = true :=
        fun other member => right other (List.mem_cons_of_mem d member)
      have first := isDigit_iff_code.1 (left c List.mem_cons_self)
      have second := isDigit_iff_code.1 (right d List.mem_cons_self)
      rw [ofDigitChars_cons, ofDigitChars_cons, lengths] at less
      rw [List.flatMap_cons, List.flatMap_cons, utf8EncodeChar_eq (left c List.mem_cons_self),
        utf8EncodeChar_eq (right d List.mem_cons_self), List.singleton_append,
        List.singleton_append, List.compare_cons_cons]
      rcases Nat.lt_trichotomy c.toNat d.toNat with before | equal | after
      · have order : compare (UInt8.ofNat c.toNat) (UInt8.ofNat d.toNat) = .lt := by
          rw [Std.compare_eq_lt, UInt8.lt_iff_toNat_lt, UInt8.toNat_ofNat', UInt8.toNat_ofNat']
          omega
        rw [order]
        rfl
      · rw [equal] at less ⊢
        rw [Std.compare_self]
        exact ih restLeft restRight lengths (Nat.lt_of_add_lt_add_left less)
      · have bound := ofDigitChars_lt restRight
        have gap : 10 ^ ds.length * (d.toNat - 48 + 1) ≤ 10 ^ ds.length * (c.toNat - 48) :=
          Nat.mul_le_mul_left _ (by omega)
        rw [Nat.mul_add] at gap
        omega

end Digits

end Criteria
