import Criteria.Text.Basic

/-! Strings and their bytes. Characters are encoded one after another, and no character's bytes
begin another's, so bytes that begin a string are a string that begins it. -/

set_option autoImplicit false

namespace Criteria

theorem utf8_ofList (cs : List Char) : utf8 (String.ofList cs) = cs.flatMap String.utf8EncodeChar := by
  simp [utf8, String.toUTF8, String.toByteArray_ofList, List.utf8Encode]

theorem utf8_eq (s : String) : utf8 s = s.toList.flatMap String.utf8EncodeChar := by
  rw [← utf8_ofList, String.ofList_toList]

theorem utf8_append (s t : String) : utf8 (s ++ t) = utf8 s ++ utf8 t := by
  simp [utf8_eq]

theorem ofUtf8?_utf8 (s : String) : ofUtf8? (utf8 s) = some s := by
  have bytes : (⟨(utf8 s).toArray⟩ : ByteArray) = s.toByteArray := by
    simp [utf8, String.toUTF8]
  simp only [ofUtf8?, String.fromUTF8?, bytes, dif_pos s.isValidUTF8]
  rfl

theorem utf8_injective {s t : String} (same : utf8 s = utf8 t) : s = t := by
  have decoded := congrArg ofUtf8? same
  simpa only [ofUtf8?_utf8, Option.some.injEq] using decoded

theorem toList_prefix_of_utf8 {s t : String} (begins : utf8 s <+: utf8 t) :
    s.toList <+: t.toList := by
  obtain ⟨rest, same⟩ := begins
  refine List.isPrefix_of_utf8Encode_append_eq_utf8Encode rest.toByteArray ?_
  have bytes : ∀ s : String, s.toList.utf8Encode = (utf8 s).toByteArray := by
    simp [utf8_eq, List.utf8Encode]
  rw [bytes, bytes, ← same, List.toByteArray_append]

section Bytes

variable {c : Char} {b : UInt8}

theorem utf8EncodeChar_of_ascii (ascii : c.toNat ≤ 127) :
    String.utf8EncodeChar c = [UInt8.ofNat c.toNat] := by
  have small : c.val.toNat ≤ 127 := ascii
  simp only [String.utf8EncodeChar, if_pos small]
  rfl

/-- No byte of another character is that of an ASCII character. -/
theorem le_of_mem_utf8EncodeChar (other : ¬ c.toNat ≤ 127)
    (member : b ∈ String.utf8EncodeChar c) : 128 ≤ b.toNat := by
  have large : ¬ c.val.toNat ≤ 127 := other
  simp only [String.utf8EncodeChar, if_neg large] at member
  split at member
  · simp only [List.mem_cons, List.not_mem_nil, or_false] at member
    rcases member with rfl | rfl <;> rw [UInt8.toNat_ofNat'] <;> omega
  split at member
  · simp only [List.mem_cons, List.not_mem_nil, or_false] at member
    rcases member with rfl | rfl | rfl <;> rw [UInt8.toNat_ofNat'] <;> omega
  · simp only [List.mem_cons, List.not_mem_nil, or_false] at member
    rcases member with rfl | rfl | rfl | rfl <;> rw [UInt8.toNat_ofNat'] <;> omega

end Bytes

end Criteria
