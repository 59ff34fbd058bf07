import Criteria.Number.Numeral
import Criteria.Proofs.Text.Digits
import Mathlib.Algebra.Ring.Int.Defs

/-! Whole numbers of 64 bits are read as they were written, where nothing follows that could
belong to a numeral. -/

set_option autoImplicit false

namespace Criteria

/-- Whole numbers, signed or unsigned, of 64 bits. -/
def Number.IsWhole64 : Number → Prop
  | .int i => -2 ^ 63 ≤ i ∧ i < 2 ^ 64
  | .float _ => False

instance (n : Number) : Decidable n.IsWhole64 :=
  match n with
  | .int _ => inferInstanceAs (Decidable (_ ∧ _))
  | .float _ => inferInstanceAs (Decidable False)

namespace Numeral

variable {b : UInt8} {rest : Bytes} {cs : List Char} {n : Nat}

/-- No byte that a numeral could go on with comes first. -/
def Ends (rest : Bytes) : Prop :=
  ∀ b ∈ rest.head?, isDigit b = false ∧ b ≠ 0x2e ∧ b ≠ 0x65 ∧ b ≠ 0x45

/-- The values of digits. -/
def values (cs : List Char) : List Nat :=
  cs.map fun c => c.toNat - 48

theorem isDigit_of_isDigit {c : Char} (digit : c.isDigit = true) :
    isDigit (UInt8.ofNat c.toNat) = true ∧ (UInt8.ofNat c.toNat).toNat = c.toNat := by
  have bounds := isDigit_iff_code.1 digit
  have number : (UInt8.ofNat c.toNat).toNat = c.toNat := by
    rw [UInt8.toNat_ofNat']
    omega
  refine ⟨?_, number⟩
  simp only [isDigit, UInt8.le_iff_toNat_le, number, Bool.and_eq_true, decide_eq_true_eq]
  exact bounds

theorem digits_append (all : ∀ c ∈ cs, c.isDigit = true) (ends : Ends rest) :
    digits (cs.flatMap String.utf8EncodeChar ++ rest) = (values cs, rest) := by
  induction cs with
  | nil =>
    cases rest with
    | nil => rfl
    | cons b rest =>
      have other := (ends b rfl).1
      simp [digits, values, other]
  | cons c cs ih =>
    obtain ⟨digit, others⟩ := List.forall_mem_cons.1 all
    obtain ⟨first, number⟩ := isDigit_of_isDigit digit
    obtain ⟨found, left⟩ := Prod.mk.inj (ih others)
    simp only [List.flatMap_cons, Digits.utf8EncodeChar_eq digit, List.cons_append,
      List.nil_append, digits, List.takeWhile_cons, List.dropWhile_cons, first, if_true,
      List.map_cons, number, found, left]
    rfl

theorem fraction?_of_ends (ends : Ends rest) : fraction? rest = some ([], rest) := by
  unfold fraction?
  split
  · exact absurd rfl (ends _ rfl).2.1
  · rfl

theorem exponent?_of_ends (ends : Ends rest) : exponent? rest = some (none, rest) := by
  unfold exponent?
  split
  · exact absurd rfl (ends _ rfl).2.2.1
  · exact absurd rfl (ends _ rfl).2.2.2
  · rfl

/-- A numeral that begins with a zero would be too long for its number. -/
theorem tail_of_toDigits {tail : List Char} (zero : Nat.toDigits 10 n = '0' :: tail) :
    tail = [] := by
  have all : ∀ c ∈ tail, c.isDigit = true := by
    intro c member
    refine Nat.isDigit_of_mem_toDigits (b := 10) (n := n) (by decide) (by decide) ?_
    exact zero ▸ List.mem_cons_of_mem _ member
  have small : n < 10 ^ tail.length := by
    have value := Nat.ofDigitChars_ten_toDigits (n := n)
    rw [zero, Digits.ofDigitChars_cons] at value
    have rest := Digits.ofDigitChars_lt all
    have nothing : 10 ^ tail.length * ('0'.toNat - 48) = 0 := Nat.mul_zero _
    omega
  refine Classical.byContradiction fun more => ?_
  have long := (Nat.length_toDigits_le_iff (by decide) (List.length_pos_iff.2 more)).2 small
  rw [zero, List.length_cons] at long
  omega

theorem whole?_of_digits (n : Nat) (ends : Ends rest) :
    whole? ((Nat.toDigits 10 n).flatMap String.utf8EncodeChar ++ rest) =
      some (values (Nat.toDigits 10 n), rest) := by
  have all : ∀ c ∈ Nat.toDigits 10 n, c.isDigit = true :=
    fun c member => Nat.isDigit_of_mem_toDigits (by decide) (by decide) member
  rw [whole?, digits_append all ends]
  cases written : Nat.toDigits 10 n with
  | nil => exact absurd written Nat.toDigits_ne_nil
  | cons c tail =>
    split
    · next none => cases (Prod.mk.inj none).1
    · next d ds left zero =>
      obtain ⟨same, -⟩ := Prod.mk.inj zero
      obtain ⟨first, more⟩ := List.cons.inj same
      -- only the digit zero has the value zero
      have bounds := isDigit_iff_code.1 (all c (written ▸ List.mem_cons_self))
      have digit : c = '0' := Char.toNat_inj.1 (by
        have value : c.toNat - 48 = 0 := first
        have number : '0'.toNat = 48 := rfl
        omega)
      have alone := tail_of_toDigits (digit ▸ written)
      cases alone ▸ more
    · rfl

/-- Digits of a number that fits into 64 bits are gathered to the last one. -/
theorem gather_eq (ds : List Nat) (start : Nat)
    (fits : ds.foldl (fun value d => 10 * value + d) start < 2 ^ 64) :
    gather start ds = (ds.foldl (fun value d => 10 * value + d) start, []) := by
  have grows : ∀ (ds : List Nat) (start : Nat),
      start ≤ ds.foldl (fun value d => 10 * value + d) start := by
    intro ds
    induction ds with
    | nil => exact fun start => Nat.le_refl start
    | cons d ds ih =>
      intro start
      have next := ih (10 * start + d)
      rw [List.foldl_cons]
      omega
  induction ds generalizing start with
  | nil => rfl
  | cons d ds ih =>
    rw [List.foldl_cons] at fits ⊢
    have room : 10 * start + d < Nat.pow 2 64 := Nat.lt_of_le_of_lt (grows ds _) fits
    rw [gather, if_pos room, ih _ fits]

theorem gather_values (fits : n < 2 ^ 64) : gather 0 (values (Nat.toDigits 10 n)) = (n, []) := by
  have value : (values (Nat.toDigits 10 n)).foldl (fun value d => 10 * value + d) 0 = n := by
    rw [values, List.foldl_map]
    exact Nat.ofDigitChars_ten_toDigits
  rw [gather_eq _ _ (value.symm ▸ fits), value]

theorem unsigned?_of_digits (negative : Bool) (n : Nat) (ends : Ends rest) :
    unsigned? negative ((Nat.toDigits 10 n).flatMap String.utf8EncodeChar ++ rest) =
      some (⟨negative, values (Nat.toDigits 10 n), [], none⟩, rest) := by
  simp only [unsigned?, whole?_of_digits n ends, fraction?_of_ends ends, exponent?_of_ends ends,
    Option.bind_eq_bind, Option.bind_some, Option.pure_def]

theorem read?_of_digits (n : Nat) (ends : Ends rest) :
    read? ((Nat.toDigits 10 n).flatMap String.utf8EncodeChar ++ rest) =
      some (⟨false, values (Nat.toDigits 10 n), [], none⟩, rest) := by
  unfold read?
  split
  · next more same =>
    cases written : Nat.toDigits 10 n with
    | nil => exact absurd written Nat.toDigits_ne_nil
    | cons c tail =>
      -- a digit is no sign
      have digit : c.isDigit = true := by
        refine Nat.isDigit_of_mem_toDigits (b := 10) (n := n) (by decide) (by decide) ?_
        exact written ▸ List.mem_cons_self
      rw [written, List.flatMap_cons, Digits.utf8EncodeChar_eq digit] at same
      have first := (isDigit_of_isDigit digit).1
      rw [(List.cons.inj same).1] at first
      cases first
  · exact unsigned?_of_digits false n ends

/-- A whole number is read as it was written. -/
theorem read?_toString {i : Int} (fits : (Number.int i).IsWhole64) (ends : Ends rest) :
    ∃ numeral, read? (utf8 (toString i) ++ rest) = some (numeral, rest) ∧
      numeral.value? = some (.int i) := by
  obtain ⟨low, high⟩ := fits
  cases i with
  | ofNat n =>
    have small : n < 2 ^ 64 := Int.ofNat_lt.1 high
    have text : utf8 (toString (Int.ofNat n)) =
        (Nat.toDigits 10 n).flatMap String.utf8EncodeChar := by
      rw [← utf8_ofList, ← Nat.toString_eq_ofList_toDigits]
      rfl
    refine ⟨⟨false, values (Nat.toDigits 10 n), [], none⟩, ?_, ?_⟩
    · rw [text, read?_of_digits n ends]
    · simp only [value?, gather_values small]
      rfl
  | negSucc n =>
    have small : n + 1 ≤ 2 ^ 63 := by omega
    have text : utf8 (toString (Int.negSucc n)) =
        0x2d :: (Nat.toDigits 10 (n + 1)).flatMap String.utf8EncodeChar := by
      have sign : utf8 "-" = [0x2d] := by decide
      rw [← utf8_ofList, ← Nat.toString_eq_ofList_toDigits, ← List.singleton_append, ← sign,
        ← utf8_append]
      rfl
    refine ⟨⟨true, values (Nat.toDigits 10 (n + 1)), [], none⟩, ?_, ?_⟩
    · rw [text, List.cons_append, read?, unsigned?_of_digits true (n + 1) ends]
    · have fits : n + 1 < 2 ^ 64 := by omega
      have bounded : 1 ≤ n + 1 ∧ n + 1 ≤ Nat.pow 2 63 := ⟨Nat.succ_pos n, small⟩
      simp only [value?, gather_values fits, bounded]
      rfl

end Numeral

end Criteria
