import Criteria.Json.Quoted
import Criteria.Proofs.Text.Utf8

/-! Strings between quotes are read as they were written. Each character is read from what it was
escaped to, as its bytes or as one unit. -/

set_option autoImplicit false

namespace Criteria.Quoted

variable {c : Char} {b : UInt8}

/-- The parts are the bytes of a text, whatever follows them. -/
def Spell (parts : List Part) (bytes : Bytes) : Prop :=
  ∀ more, bytes? (parts ++ more) = (bytes? more).map (bytes ++ ·)

theorem Spell.nil : Spell [] [] := by
  intro more
  simp

theorem Spell.append {first second : List Part} {bytes tail : Bytes} (head : Spell first bytes)
    (last : Spell second tail) : Spell (first ++ second) (bytes ++ tail) := by
  intro more
  rw [List.append_assoc, head, last, Option.map_map]
  simp [Function.comp_def]

theorem Spell.byte (b : UInt8) : Spell [.byte b] [b] :=
  fun _ => rfl

theorem Spell.plain (bytes : Bytes) : Spell (bytes.map .byte) bytes := by
  induction bytes with
  | nil => exact .nil
  | cons b rest ih => exact (Spell.byte b).append ih

theorem Spell.unit (small : c.toNat < 32) : Spell [.unit c.toNat] (String.utf8EncodeChar c) := by
  have high : isHighSurrogate c.toNat = false := by
    simp only [isHighSurrogate, Bool.and_eq_false_iff, decide_eq_false_iff_not]
    omega
  have low : isLowSurrogate c.toNat = false := by
    simp only [isLowSurrogate, Bool.and_eq_false_iff, decide_eq_false_iff_not]
    omega
  intro more
  rcases more with _ | ⟨_ | _, more⟩ <;> simp [bytes?, high, low]

/-- A reader of the text gives the parts and goes on with what follows. -/
def Reads (bytes : Bytes) (parts : List Part) : Prop :=
  ∀ rest, read? (bytes ++ rest) = (read? rest).map fun found => (parts ++ found.1, found.2)

theorem Reads.nil : Reads [] [] := by
  intro rest
  simp

theorem Reads.append {bytes tail : Bytes} {first second : List Part} (head : Reads bytes first)
    (last : Reads tail second) : Reads (bytes ++ tail) (first ++ second) := by
  intro rest
  rw [List.append_assoc, head, last, Option.map_map]
  simp [Function.comp_def]

theorem Reads.byte (visible : 0x20 ≤ b) (noQuote : b ≠ 0x22) (noBackslash : b ≠ 0x5c) :
    Reads [b] [.byte b] := by
  intro rest
  have printed : ¬ (b < 0x20 ∨ b = 0x5c) := by
    rw [not_or, UInt8.not_lt]
    exact ⟨visible, noBackslash⟩
  rw [List.singleton_append, read?.eq_def]
  split
  · contradiction
  · next same => exact absurd (List.cons.inj same).1 noQuote
  · next same => exact absurd (List.cons.inj same).1 noBackslash
  · next same => exact absurd (List.cons.inj same).1 noBackslash
  · next same =>
    obtain ⟨rfl, rfl⟩ := List.cons.inj same
    rw [if_neg printed]
    cases read? rest <;> rfl

theorem Reads.simple {byte : UInt8} (simple : simpleEscape? b = some byte) :
    Reads [0x5c, b] [.byte byte] := by
  intro rest
  rw [List.cons_append, List.singleton_append, read?.eq_def]
  split
  · contradiction
  · next same => exact absurd (List.cons.inj same).1 (by decide)
  · next same =>
    obtain ⟨-, same⟩ := List.cons.inj same
    obtain ⟨rfl, -⟩ := List.cons.inj same
    cases simple
  · next same =>
    obtain ⟨-, same⟩ := List.cons.inj same
    obtain ⟨rfl, rfl⟩ := List.cons.inj same
    rw [simple]
    cases read? rest <;> rfl
  · next distinct same =>
    obtain ⟨rfl, rfl⟩ := List.cons.inj same
    exact absurd rfl (distinct b rest rfl)

/-- The bytes of a character that is not escaped stand for themselves. -/
theorem Reads.char (visible : 32 ≤ c.toNat) (noQuote : c ≠ '"') (noBackslash : c ≠ '\\') :
    Reads (String.utf8EncodeChar c) ((String.utf8EncodeChar c).map .byte) := by
  have plain : ∀ b ∈ String.utf8EncodeChar c, 32 ≤ b.toNat ∧ b ≠ 0x22 ∧ b ≠ 0x5c := by
    intro b member
    by_cases ascii : c.toNat ≤ 127
    · rw [utf8EncodeChar_of_ascii ascii, List.mem_singleton] at member
      have number : b.toNat = c.toNat := by
        rw [member, UInt8.toNat_ofNat']
        omega
      refine ⟨by omega, ?_, ?_⟩
      · rintro rfl
        exact noQuote (Char.toNat_inj.1 number.symm)
      · rintro rfl
        exact noBackslash (Char.toNat_inj.1 number.symm)
    · have large := le_of_mem_utf8EncodeChar ascii member
      refine ⟨by omega, ?_, ?_⟩ <;> rintro rfl <;> exact absurd large (by decide)
  generalize String.utf8EncodeChar c = bytes at plain
  induction bytes with
  | nil => exact .nil
  | cons b rest ih =>
    obtain ⟨⟨printed, quote, backslash⟩, others⟩ := List.forall_mem_cons.1 plain
    exact (Reads.byte (UInt8.le_iff_toNat_le.2 printed) quote backslash).append (ih others)

theorem hexDigit_ascii : ∀ n < 16, (hexDigit n).toNat ≤ 127 := by
  decide

theorem hexValue?_hexDigit : ∀ n < 16, hexValue? (UInt8.ofNat (hexDigit n).toNat) = some n := by
  decide

/-- A control character without an escape of its own is written as its number. -/
theorem Reads.control (small : c.toNat < 32) :
    Reads (['\\', 'u', '0', '0', hexDigit (c.toNat / 16), hexDigit (c.toNat % 16)].flatMap
      String.utf8EncodeChar) [.unit c.toNat] := by
  have high : c.toNat / 16 < 16 := by omega
  have low : c.toNat % 16 < 16 := by omega
  have value : unit? 0x30 0x30 (UInt8.ofNat (hexDigit (c.toNat / 16)).toNat)
      (UInt8.ofNat (hexDigit (c.toNat % 16)).toNat) = some c.toNat := by
    have zero : hexValue? 0x30 = some 0 := rfl
    simp only [unit?, zero, hexValue?_hexDigit _ high, hexValue?_hexDigit _ low, Option.pure_def,
      Option.bind_eq_bind, Option.bind_some, Option.some.injEq]
    omega
  intro rest
  simp only [List.flatMap_cons, List.flatMap_nil, List.append_nil,
    utf8EncodeChar_of_ascii (hexDigit_ascii _ high), utf8EncodeChar_of_ascii (hexDigit_ascii _ low)]
  change read? (0x5c :: 0x75 :: 0x30 :: 0x30 :: _ :: _ :: rest) = _
  rw [read?, value]
  cases read? rest <;> rfl

theorem reads_escape (c : Char) : ∃ parts, Reads ((escape c).flatMap String.utf8EncodeChar) parts ∧
    Spell parts (String.utf8EncodeChar c) := by
  unfold escape
  split
  iterate 7 exact ⟨_, .simple rfl, .byte _⟩
  next noQuote noBackslash _ _ _ _ _ =>
  split
  · next small => exact ⟨_, .control small, .unit small⟩
  · next visible =>
    rw [List.flatMap_singleton]
    exact ⟨_, .char (Nat.not_lt.1 visible) noQuote noBackslash, .plain _⟩

theorem reads_escapes (cs : List Char) :
    ∃ parts, Reads ((cs.flatMap escape).flatMap String.utf8EncodeChar) parts ∧
      Spell parts (cs.flatMap String.utf8EncodeChar) := by
  induction cs with
  | nil => exact ⟨[], .nil, .nil⟩
  | cons c rest ih =>
    obtain ⟨first, readsFirst, spellFirst⟩ := reads_escape c
    obtain ⟨parts, reads, spell⟩ := ih
    simp only [List.flatMap_cons, List.flatMap_append]
    exact ⟨_, readsFirst.append reads, spellFirst.append spell⟩

/-- A string is read from what it is written as, the first quote taken off. -/
theorem read?_chars (s : String) (rest : Bytes) : ∃ parts, decode? parts = some s ∧
    (chars s).flatMap String.utf8EncodeChar ++ rest = 0x22 ::
      ((s.toList.flatMap escape).flatMap String.utf8EncodeChar ++ 0x22 :: rest) ∧
    read? ((s.toList.flatMap escape).flatMap String.utf8EncodeChar ++ 0x22 :: rest) =
      some (parts, rest) := by
  obtain ⟨parts, reads, spell⟩ := reads_escapes s.toList
  have quote : String.utf8EncodeChar '"' = [0x22] := rfl
  refine ⟨parts, ?_, ?_, ?_⟩
  · have bytes := spell []
    rw [List.append_nil, bytes?, Option.map_some, List.append_nil, ← utf8_eq] at bytes
    rw [decode?, bytes, Option.bind_some, ofUtf8?_utf8]
  · simp [chars, quote]
  · rw [reads, read?, Option.map_some, List.append_nil]

end Criteria.Quoted
