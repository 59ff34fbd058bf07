import Criteria.Proofs.Text.Identifier
import Criteria.Text.Lowercase

/-!
Lower case and ASCII. Within ASCII only the capital letters change, and the lower case of other
characters stays beyond ASCII, but for that of the Kelvin sign. So lower case makes an identifier
of a text just when it is one, Kelvin signs read as letters.
-/

set_option autoImplicit false

namespace Criteria

namespace LetterCase

variable {c : Char}

/-- The Kelvin sign, whose lower case is the letter k. -/
def kelvin : Char := '\u212a'

/-- The run and its lower-case forms lie beyond ASCII. -/
def Run.IsBeyond (run : Run) : Prop :=
  128 ≤ run.first ∧ 128 ≤ run.first + run.shift

instance (run : Run) : Decidable run.IsBeyond :=
  inferInstanceAs (Decidable (_ ∧ _))

/-- All the lower-case forms of the run are characters. -/
def Run.IsValid (run : Run) : Prop :=
  0 ≤ run.first + run.shift ∧ (run.last + run.shift < 0xd800 ∨
    0xdfff < run.first + run.shift ∧ run.last + run.shift < 0x110000)

instance (run : Run) : Decidable run.IsValid :=
  inferInstanceAs (Decidable (_ ∧ _))

theorem isValid_of_mem : ∀ run ∈ lowerRuns, run.IsValid := by
  decide +kernel

/-- Capital letters, the Kelvin sign, and runs beyond ASCII. -/
theorem run_cases : ∀ run ∈ lowerRuns,
    (run.first = 65 ∧ run.last = 90 ∧ run.shift = 32) ∨
      (run.first = kelvin.toNat ∧ run.last = kelvin.toNat) ∨ run.IsBeyond := by
  decide +kernel

theorem holds_iff {run : Run} {code : Nat} : run.holds code = true ↔
    run.first ≤ code ∧ code ≤ run.last ∧ (code - run.first) % run.step = 0 := by
  simp only [Run.holds, Bool.and_eq_true, decide_eq_true_eq, beq_iff_eq, and_assoc]

/-- What a run moves a character by, it moves its code point by. -/
theorem lower_cases (c : Char) :
    lower c = c ∨ ∃ run ∈ lowerRuns, run.holds c.toNat = true ∧
      ((lower c).toNat : Int) = c.toNat + run.shift := by
  unfold lower
  cases found : lowerRuns.find? fun run => run.holds c.toNat with
  | none => exact .inl rfl
  | some run =>
    have member := List.mem_of_find?_eq_some found
    have holds := List.find?_some found
    obtain ⟨low, high, -⟩ := holds_iff.1 holds
    obtain ⟨positive, range⟩ := isValid_of_mem run member
    have valid : (c.toNat + run.shift).toNat.isValidChar := by
      unfold Nat.isValidChar
      omega
    have code : (Char.ofNat (c.toNat + run.shift).toNat).toNat = (c.toNat + run.shift).toNat := by
      rw [Char.ofNat, dif_pos valid]
      rfl
    refine .inr ⟨run, member, holds, ?_⟩
    simp only [code]
    omega

theorem lower_kelvin : lower kelvin = 'k' := by
  decide +kernel

/-- The character, the letter K for the Kelvin sign. -/
def plain (c : Char) : Char :=
  if c = kelvin then 'K' else c

/-- Lower case keeps a code point, or moves a capital letter to a small one, or stays beyond
ASCII. -/
theorem toNat_lower (c : Char) : (lower c).toNat = (plain c).toNat ∨
    (65 ≤ (plain c).toNat ∧ (plain c).toNat ≤ 90 ∧ (lower c).toNat = (plain c).toNat + 32) ∨
      (128 ≤ (plain c).toNat ∧ 128 ≤ (lower c).toNat) := by
  by_cases sign : c = kelvin
  · rw [sign, lower_kelvin]
    decide
  rw [plain, if_neg sign]
  rcases lower_cases c with same | ⟨run, member, holds, code⟩
  · exact .inl (congrArg Char.toNat same)
  · obtain ⟨low, high, -⟩ := holds_iff.1 holds
    rcases run_cases run member with ⟨first, last, shift⟩ | ⟨first, last⟩ | ⟨beyond, away⟩
    · omega
    · exact absurd (Char.toNat_inj.1 (by omega)) sign
    · omega

theorem isWordChar_lower (c : Char) : isWordChar (lower c) = isWordChar (plain c) := by
  rw [Bool.eq_iff_iff, isWordChar_iff_code, isWordChar_iff_code]
  have codes := toNat_lower c
  omega

theorem isDigit_lower (c : Char) : (lower c).isDigit = (plain c).isDigit := by
  rw [Bool.eq_iff_iff, isDigit_iff_code, isDigit_iff_code]
  have codes := toNat_lower c
  omega

theorem lower_eq_point_iff : lower c = '.' ↔ c = '.' := by
  have point : plain c = '.' ↔ c = '.' := by
    unfold plain
    split
    · next sign =>
      rw [sign]
      decide
    · exact Iff.rfl
  have code : '.'.toNat = 46 := rfl
  have codes := toNat_lower c
  rw [← point, ← Char.toNat_inj, ← Char.toNat_inj, code]
  omega

/-! ### Texts -/

variable {cs : List Char}

theorem not_isWordChar_lowerSigma (before after : List Char) :
    isWordChar (lowerSigma before after) = false := by
  unfold lowerSigma
  split <;> rfl

/-- A word comes from words only, since the characters that lower case treats in a way of their own
give others than word characters. -/
theorem isWord_lowerFrom_iff (before cs : List Char) :
    (∀ c ∈ lowerFrom before cs, isWordChar c = true) ↔ ∀ c ∈ cs, isWordChar (plain c) = true := by
  induction cs generalizing before with
  | nil => simp [lowerFrom]
  | cons c after ih =>
    rw [lowerFrom, List.forall_mem_append, ih, List.forall_mem_cons]
    refine and_congr_left fun _ => ?_
    split
    · next sigma =>
      subst sigma
      simp only [List.mem_singleton, forall_eq, not_isWordChar_lowerSigma]
      decide
    split
    · next dotted =>
      subst dotted
      -- its lower case has a dot of its own, which is no word character either
      constructor
      · intro word
        exact absurd (word '\u0307' (by simp)) (by decide)
      · intro word
        exact absurd word (by decide)
    · simp only [List.mem_singleton, forall_eq, isWordChar_lower]

theorem lowerFrom_eq_map (words : ∀ c ∈ cs, isWordChar (plain c) = true) (before : List Char) :
    lowerFrom before cs = cs.map lower := by
  induction cs generalizing before with
  | nil => rfl
  | cons c after ih =>
    obtain ⟨word, rest⟩ := List.forall_mem_cons.1 words
    have sigma : c ≠ 'Σ' := by
      rintro rfl
      exact absurd word (by decide)
    have dotted : c ≠ 'İ' := by
      rintro rfl
      exact absurd word (by decide)
    rw [lowerFrom, if_neg sigma, if_neg dotted, ih rest]
    rfl

theorem point_mem_lowerFrom_iff (before cs : List Char) :
    '.' ∈ lowerFrom before cs ↔ '.' ∈ cs := by
  induction cs generalizing before with
  | nil => simp [lowerFrom]
  | cons c after ih =>
    rw [lowerFrom, List.mem_append, ih, List.mem_cons]
    refine or_congr_left ?_
    split
    · next sigma =>
      subst sigma
      unfold lowerSigma
      split <;> decide
    split
    · next dotted =>
      subst dotted
      decide
    · rw [List.mem_singleton, eq_comm, lower_eq_point_iff, eq_comm]

end LetterCase

theorem isWord_lowercase_iff {s : String} :
    IsWord (lowercase s) ↔ IsWord (s.map LetterCase.plain) := by
  unfold IsWord lowercase
  rw [String.toList_ofList, LetterCase.isWord_lowerFrom_iff, String.toList_map, List.forall_mem_map]

theorem isIdentifier_lowercase (s : String) :
    isIdentifier (lowercase s) = isIdentifier (s.map LetterCase.plain) := by
  rw [Bool.eq_iff_iff, isIdentifier_iff, isIdentifier_iff, isWord_lowercase_iff]
  refine and_congr_right fun word => ?_
  -- a word is lower-cased character by character
  have words : ∀ c ∈ s.toList, isWordChar (LetterCase.plain c) = true := by
    unfold IsWord at word
    rwa [String.toList_map, List.forall_mem_map] at word
  rw [lowercase, String.toList_ofList, LetterCase.lowerFrom_eq_map words, String.toList_map]
  cases s.toList with
  | nil => rfl
  | cons first rest => simp [LetterCase.isDigit_lower]

theorem point_mem_lowercase_iff {s : String} : '.' ∈ (lowercase s).toList ↔ '.' ∈ s.toList := by
  rw [lowercase, String.toList_ofList, LetterCase.point_mem_lowerFrom_iff]

end Criteria
