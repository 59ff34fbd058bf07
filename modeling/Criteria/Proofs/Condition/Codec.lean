import Criteria.Condition.Encoding
import Criteria.Proofs.Condition.Evaluation
import Criteria.Proofs.Json.Codec

/-! Conditions and their parts are recovered from their encodings, and nothing that they are decoded
from nests less deeply. -/

set_option autoImplicit false

namespace Criteria

open Decoder

theorem Comparison.named?_name (op : Comparison) : named? op.name = some op := by
  cases op <;> rfl

theorem Comparison.recovers (op : Comparison) : Comparison.decoder.Recovers op.encode op :=
  recovers_constant op.named?_name

theorem Comparison.covers (op : Comparison) : Comparison.decoder.Covers op.encode op :=
  covers_of_flat rfl

namespace FieldRef

theorem recovers (ref : FieldRef) : FieldRef.decoder.Recovers ref.encode ref := by
  refine recovers_of_structure (fun _ => rfl) (fun _ _ => rfl) rfl (by decide)
    ⟨trivial, trivial, trivial⟩ fun depth => ?_
  simp only [List.map_cons, List.map_nil, (recovers_text _).required, Option.bind_eq_bind,
    guard_bind, ← ite_and]
  simp

theorem covers (ref : FieldRef) : FieldRef.decoder.Covers ref.encode ref := by
  refine covers_of_structure (fun _ => rfl) (fun _ _ => rfl) fun _ _ _ _ _ => ?_
  simp only [List.forall_mem_cons]
  exact ⟨Nat.zero_le _, Nat.zero_le _, nofun⟩

end FieldRef

namespace Operand

theorem recovers (operand : Operand) : Operand.decoder.Recovers operand.encode operand := by
  cases operand with
  | field ref => exact ref.recovers.variant rfl fun _ => rfl
  | parameter name => exact (recovers_text name).variant rfl fun _ => rfl

theorem covers (operand : Operand) : Operand.decoder.Covers operand.encode operand := by
  intro depth document accepted
  unfold decoder at accepted
  split at accepted
  · next depth kind payload =>
    split at accepted
    · obtain ⟨ref, decoded, rfl⟩ := Option.map_eq_some_iff.1 accepted
      exact JsonTree.depth_variant_le "field" _ (ref.covers decoded)
    · obtain ⟨name, decoded, rfl⟩ := Option.map_eq_some_iff.1 accepted
      exact JsonTree.depth_variant_le "param" _ (Nat.zero_le _)
    · cases accepted
  · cases accepted

end Operand

namespace Condition

theorem encodeParts_eq (parts : List Condition) : encodeParts parts = parts.map encode := by
  induction parts with
  | nil => rfl
  | cons part rest ih => rw [encodeParts, ih, List.map_cons]

theorem encode_ne_null (c : Condition) : c.encode ≠ .null := by
  cases c <;> simp [encode]

/-! ### Comparisons -/

def encodeCompare (left : Operand) (op : Comparison) (right : Operand) : Json :=
  .record [("left", left.encode), ("op", op.encode), ("right", right.encode)]

theorem recovers_compare (left : Operand) (op : Comparison) (right : Operand) :
    Decoder.Recovers decodeCompare (encodeCompare left op right) (.compare left op right) := by
  refine recovers_of_structure (fun _ => rfl) (fun _ _ => rfl) rfl (by decide)
    ⟨left.recovers.whole, trivial, right.recovers.whole, trivial⟩ fun depth => ?_
  simp only [List.map_cons, List.map_nil, left.recovers.required, op.recovers.required,
    right.recovers.required, Option.bind_eq_bind, guard_bind, ← ite_and]
  simp

/-- Only comparisons are decoded from the members of one. -/
theorem compare_of_decodeCompare {c : Condition} {depth : Nat} {payload : Document}
    (accepted : decodeCompare depth payload = some c) :
    ∃ left op right, c = .compare left op right ∧
      (encodeCompare left op right).depth ≤ min depth payload.depth := by
  cases depth with
  | zero => cases accepted
  | succ depth =>
    obtain ⟨found, limit, depth_eq, inside, accepted⟩ := members_of_structure accepted
    split at accepted
    · obtain ⟨left, first, accepted⟩ := Option.bind_eq_some_iff.1 accepted
      obtain ⟨op, second, accepted⟩ := Option.bind_eq_some_iff.1 accepted
      obtain ⟨right, third, same⟩ := Option.bind_eq_some_iff.1 accepted
      have onLeft := left.covers.required (inside _ (by simp)) first
      have onOp := op.covers.required (inside _ (by simp)) second
      have onRight := right.covers.required (inside _ (by simp)) third
      refine ⟨left, op, right, (Option.some.inj same).symm, ?_⟩
      rw [depth_eq, Nat.add_min_add_right, encodeCompare, JsonTree.depth_record_le_succ_iff]
      simp only [List.forall_mem_cons]
      exact ⟨onLeft, onOp, onRight, nofun⟩
    · cases accepted

/-! ### Conditions -/

theorem decoder_and (depth : Nat) (payload : Document) :
    decoder (depth + 1) (.record [(some "and", payload)]) =
      (Decoder.list decoder depth payload).map .all := by
  cases depth <;> cases payload <;> rfl

theorem decoder_or (depth : Nat) (payload : Document) :
    decoder (depth + 1) (.record [(some "or", payload)]) =
      (Decoder.list decoder depth payload).map .any := by
  cases depth <;> cases payload <;> rfl

theorem recovers (c : Condition) : Condition.decoder.Recovers c.encode c := by
  induction c using Condition.induction with
  | always => exact ⟨trivial, fun depth => by cases depth <;> rfl⟩
  | compare left op right =>
    have opened : ∀ depth, decoder (depth + 1) (compare left op right).encode.toDocument =
        (decodeCompare depth (encodeCompare left op right).toDocument).map id :=
      fun _ => Option.map_id_apply.symm
    exact (recovers_compare left op right).variant rfl opened
  | all parts ih =>
    rw [encode, encodeParts_eq]
    exact (recovers_list parts ih).variant rfl fun depth => decoder_and depth _
  | any parts ih =>
    rw [encode, encodeParts_eq]
    exact (recovers_list parts ih).variant rfl fun depth => decoder_or depth _
  | not part ih => exact ih.variant rfl fun _ => rfl

/-- What conditions are decoded from: all but the constant from records with one member, which has
been decoded to the parts of the condition. -/
inductive DecodedFrom : Nat → Document → Condition → Prop where
  | always {depth document} : DecodedFrom depth document .always
  | compare {depth key payload left op right} :
    (encodeCompare left op right).depth ≤ min depth payload.depth →
    DecodedFrom (depth + 1) (.record [(key, payload)]) (.compare left op right)
  | all {depth key payload parts} : Decoder.list decoder depth payload = some parts →
    DecodedFrom (depth + 1) (.record [(key, payload)]) (.all parts)
  | any {depth key payload parts} : Decoder.list decoder depth payload = some parts →
    DecodedFrom (depth + 1) (.record [(key, payload)]) (.any parts)
  | not {depth key payload part} : decoder depth payload = some part →
    DecodedFrom (depth + 1) (.record [(key, payload)]) (.not part)

theorem decodedFrom_of_decoder {c : Condition} {depth : Nat} {document : Document}
    (accepted : decoder depth document = some c) : DecodedFrom depth document c := by
  unfold decoder at accepted
  split at accepted
  · cases accepted
    exact .always
  · split at accepted
    · cases accepted
      exact .always
    · obtain ⟨left, op, right, rfl, bound⟩ := compare_of_decodeCompare accepted
      exact .compare bound
    · obtain ⟨parts, decoded, rfl⟩ := Option.map_eq_some_iff.1 accepted
      exact .all decoded
    · obtain ⟨parts, decoded, rfl⟩ := Option.map_eq_some_iff.1 accepted
      exact .any decoded
    · obtain ⟨part, decoded, rfl⟩ := Option.map_eq_some_iff.1 accepted
      exact .not decoded
    · cases accepted
  · cases accepted

/-- By induction on the condition, whatever it is decoded from. -/
theorem covers (c : Condition) : Condition.decoder.Covers c.encode c := by
  induction c using Condition.induction with
  | always => exact covers_of_flat rfl
  | compare left op right =>
    intro depth document accepted
    cases decodedFrom_of_decoder accepted with
    | compare bound => exact JsonTree.depth_variant_le "compare" _ bound
  | all parts ih =>
    intro depth document accepted
    rw [encode, encodeParts_eq]
    cases decodedFrom_of_decoder accepted with
    | all decoded => exact JsonTree.depth_variant_le "and" _ (covers_list ih decoded)
  | any parts ih =>
    intro depth document accepted
    rw [encode, encodeParts_eq]
    cases decodedFrom_of_decoder accepted with
    | any decoded => exact JsonTree.depth_variant_le "or" _ (covers_list ih decoded)
  | not part ih =>
    intro depth document accepted
    cases decodedFrom_of_decoder accepted with
    | not decoded => exact JsonTree.depth_variant_le "not" _ (ih decoded)

end Condition

end Criteria
