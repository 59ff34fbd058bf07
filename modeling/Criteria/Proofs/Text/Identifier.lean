import Criteria.Text.Basic

/-! Words and identifiers. A number at the end of a text keeps it what it is, unless there was
nothing before the number. -/

set_option autoImplicit false

namespace Criteria

/-- A text of word characters alone. -/
def IsWord (name : String) : Prop :=
  ∀ c ∈ name.toList, isWordChar c = true

instance (name : String) : Decidable (IsWord name) :=
  List.decidableBAll (isWordChar · = true) name.toList

variable {c : Char} {name base : String}

theorem isDigit_iff_code : c.isDigit = true ↔ 48 ≤ c.toNat ∧ c.toNat ≤ 57 :=
  Char.isDigit_iff_toNat

theorem isAlpha_iff_code : c.isAlpha = true ↔
    (65 ≤ c.toNat ∧ c.toNat ≤ 90) ∨ (97 ≤ c.toNat ∧ c.toNat ≤ 122) := by
  have capital : c.isUpper = true ↔ 65 ≤ c.toNat ∧ c.toNat ≤ 90 := decide_eq_true_iff
  have small : c.isLower = true ↔ 97 ≤ c.toNat ∧ c.toNat ≤ 122 :=
    Bool.and_eq_true_iff.trans (and_congr decide_eq_true_iff decide_eq_true_iff)
  rw [← capital, ← small]
  exact Bool.or_eq_true_iff

theorem isWordChar_iff_code : isWordChar c = true ↔ (48 ≤ c.toNat ∧ c.toNat ≤ 57) ∨
    (65 ≤ c.toNat ∧ c.toNat ≤ 90) ∨ c.toNat = 95 ∨ (97 ≤ c.toNat ∧ c.toNat ≤ 122) := by
  have underscore : c = '_' ↔ c.toNat = 95 := Char.toNat_inj.symm
  rw [isWordChar, Char.isAlphanum, Bool.or_eq_true, Bool.or_eq_true, isAlpha_iff_code,
    isDigit_iff_code, beq_iff_eq, underscore]
  omega

theorem isWordChar_of_isDigit (digit : c.isDigit = true) : isWordChar c = true :=
  isWordChar_iff_code.2 (.inl (isDigit_iff_code.1 digit))

theorem not_isDigit_of_isAlpha (letter : c.isAlpha = true) : c.isDigit = false := by
  rw [Bool.eq_false_iff, Ne, isDigit_iff_code]
  have code := isAlpha_iff_code.1 letter
  omega

/-- The characters that an identifier may begin with. -/
theorem isStart_iff : (c.isAlpha || c == '_') = true ↔ isWordChar c = true ∧ c.isDigit = false := by
  simp only [isWordChar, Char.isAlphanum, Bool.or_eq_true, beq_iff_eq]
  constructor
  · rintro (letter | rfl)
    · exact ⟨.inl (.inl letter), not_isDigit_of_isAlpha letter⟩
    · exact ⟨.inr rfl, rfl⟩
  · rintro ⟨(letter | digit) | underscore, other⟩
    · exact .inl letter
    · simp [digit] at other
    · exact .inr underscore

theorem isIdentifier_iff : isIdentifier name = true ↔
    IsWord name ∧ ∃ first ∈ name.toList.head?, first.isDigit = false := by
  unfold isIdentifier IsWord
  cases name.toList with
  | nil => simp
  | cons first rest =>
    simp only [Bool.and_eq_true, isStart_iff, List.all_eq_true, List.forall_mem_cons,
      List.head?_cons, Option.mem_some_iff, exists_eq_left']
    constructor
    · rintro ⟨⟨word, other⟩, words⟩
      exact ⟨⟨word, words⟩, other⟩
    · rintro ⟨⟨word, words⟩, other⟩
      exact ⟨⟨word, other⟩, words⟩

theorem IsWord.append {other : String} (word : IsWord name) (more : IsWord other) :
    IsWord (name ++ other) := by
  unfold IsWord
  rw [String.toList_append]
  exact List.forall_mem_append.2 ⟨word, more⟩

theorem isDigit_of_mem_toString {n : Nat} (member : c ∈ (toString n).toList) :
    c.isDigit = true := by
  rw [Nat.toString_eq_ofList_toDigits, String.toList_ofList] at member
  exact Nat.isDigit_of_mem_toDigits (by decide) (by decide) member

theorem isWord_toString (n : Nat) : IsWord (toString n) :=
  fun _ member => isWordChar_of_isDigit (isDigit_of_mem_toString member)

/-- Numbered texts are identifiers by what comes before the number. -/
theorem isIdentifier_append_toString (base : String) (n : Nat) :
    isIdentifier (base ++ toString n) = isIdentifier base := by
  rw [Bool.eq_iff_iff, isIdentifier_iff, isIdentifier_iff, String.toList_append, List.head?_append]
  cases chars : base.toList with
  | nil =>
    -- the first character is then a digit
    constructor
    · rintro ⟨-, first, head, other⟩
      have digit := isDigit_of_mem_toString (List.mem_of_mem_head? head)
      simp [digit] at other
    · rintro ⟨-, first, head, -⟩
      cases head
  | cons first rest =>
    apply and_congr_left
    intro _
    constructor
    · intro word c member
      exact word c (by simp [member])
    · exact fun word => word.append (isWord_toString n)

end Criteria
