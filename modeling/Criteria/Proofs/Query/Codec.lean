import Criteria.Proofs.Condition.Codec
import Criteria.Query.Encoding

/-! Queries and their parts are recovered from their encodings, and nothing that they are decoded
from nests less deeply. Floating-point numbers are left out of the first: their texts are rounded
when they are read. -/

set_option autoImplicit false

namespace Criteria

open Decoder

namespace Literal

theorem recovers_int (i : Int64) : Decoder.int64.Recovers (.number (.int i.toInt)) i where
  whole := ⟨i.le_toInt, Int.lt_trans i.toInt_lt (by decide)⟩
  decode_eq := by
    intro depth
    have bounds : -(Nat.pow 2 63 : Nat) ≤ i.toInt ∧ i.toInt < (Nat.pow 2 63 : Nat) :=
      ⟨i.le_toInt, i.toInt_lt⟩
    have read : (Number.int i.toInt).int64? = some i.toInt := if_pos bounds
    have decoded : int64 depth (JsonTree.number (.int i.toInt)).toDocument = some i := by
      rw [JsonTree.toDocument, int64, read, Option.map_some, Int64.ofInt_toInt]
    exact decoded.trans (if_pos (Nat.zero_le _)).symm

theorem recovers_bool (b : Bool) : Decoder.bool.Recovers (.bool b) b :=
  ⟨trivial, fun _ => rfl⟩

def IsFloat : Literal → Prop
  | .float _ => True
  | .text _ | .int _ | .bool _ | .null => False

theorem recovers {literal : Literal} (notFloat : ¬ literal.IsFloat) :
    Literal.decoder.Recovers literal.encode literal := by
  cases literal with
  | text s => exact (recovers_text s).variant rfl fun _ => rfl
  | int i => exact (recovers_int i).variant rfl fun _ => rfl
  | bool b => exact (recovers_bool b).variant rfl fun _ => rfl
  | null => exact ⟨trivial, fun depth => by cases depth <;> rfl⟩
  | float x => exact absurd trivial notFloat

theorem depth_encode_le (literal : Literal) : literal.encode.depth ≤ 1 := by
  cases literal with
  | float x =>
    have flat : (floatValue x).depth = 0 := by
      unfold floatValue
      split <;> rfl
    simp [encode, JsonTree.depth, JsonTree.depthOfMembers, flat]
  | text | int | bool | null => simp [encode, JsonTree.depth, JsonTree.depthOfMembers]

theorem covers (literal : Literal) : Literal.decoder.Covers literal.encode literal := by
  intro depth document accepted
  unfold decoder at accepted
  split at accepted
  · cases accepted
    exact Nat.zero_le _
  · exact Nat.le_trans literal.depth_encode_le
      (Nat.le_min.2 ⟨Nat.le_add_left _ _, Nat.le_add_left _ _⟩)
  · cases accepted

end Literal

/-! ### Clauses -/

theorem EntityType.recovers (entity : EntityType) :
    EntityType.decoder.Recovers entity.encode entity :=
  ⟨trivial, fun _ => rfl⟩

namespace Root

theorem recovers (root : Root) : Root.decoder.Recovers root.encode root := by
  refine recovers_of_structure (fun _ => rfl) (fun _ _ => rfl) rfl (by decide)
    ⟨trivial, trivial, trivial⟩ fun depth => ?_
  simp only [List.map_cons, List.map_nil, root.entity.recovers.required,
    (recovers_text _).required, Option.bind_eq_bind, guard_bind, ← ite_and]
  simp

theorem covers (root : Root) : Root.decoder.Covers root.encode root := by
  refine covers_of_structure (fun _ => rfl) (fun _ _ => rfl) fun _ _ _ _ _ => ?_
  simp only [List.forall_mem_cons]
  exact ⟨Nat.zero_le _, Nat.zero_le _, nofun⟩

end Root

theorem JoinKind.named?_name (kind : JoinKind) : named? kind.name = some kind := by
  cases kind <;> rfl

theorem recovers_encodeOptional (c : Option Condition) :
    (Decoder.orNull Condition.decoder).Recovers (encodeOptional c) c := by
  cases c with
  | none => exact recovers_null
  | some c => exact c.recovers.orNull c.encode_ne_null

theorem covers_encodeOptional (c : Option Condition) :
    (Decoder.orNull Condition.decoder).Covers (encodeOptional c) c := by
  cases c with
  | none => exact covers_of_flat rfl
  | some c => exact c.covers.orNull

namespace Join

theorem recovers (join : Join) : Join.decoder.Recovers join.encode join := by
  have condition := recovers_encodeOptional join.condition
  refine recovers_of_structure (fun _ => rfl) (fun _ _ => rfl) rfl (by decide)
    ⟨trivial, trivial, trivial, condition.whole, trivial⟩ fun depth => ?_
  simp only [List.map_cons, List.map_nil, (recovers_constant join.kind.named?_name).required,
    join.entity.recovers.required, (recovers_text _).required, withDefault, condition.decode_eq,
    Option.bind_eq_bind, guard_bind, ← ite_and]
  simp

theorem covers (join : Join) : Join.decoder.Covers join.encode join := by
  refine covers_of_structure (fun _ => rfl) (fun _ _ => rfl)
    fun depth limit found inside accepted => ?_
  split at accepted
  · obtain ⟨kind, -, accepted⟩ := Option.bind_eq_some_iff.1 accepted
    obtain ⟨entity, -, accepted⟩ := Option.bind_eq_some_iff.1 accepted
    obtain ⟨aliasName, -, accepted⟩ := Option.bind_eq_some_iff.1 accepted
    obtain ⟨condition, fourth, same⟩ := Option.bind_eq_some_iff.1 accepted
    cases same
    have onCondition := (covers_encodeOptional condition).withDefault
      (by rintro rfl; rfl) (inside _ (by simp)) fourth
    simp only [List.forall_mem_cons]
    exact ⟨Nat.zero_le _, Nat.zero_le _, Nat.zero_le _, onCondition, nofun⟩
  · cases accepted

end Join

theorem Direction.named?_name (direction : Direction) :
    named? direction.name = some direction := by
  cases direction <;> rfl

namespace SortKey

theorem recovers (key : SortKey) : SortKey.decoder.Recovers key.encode key := by
  refine recovers_of_structure (fun _ => rfl) (fun _ _ => rfl) rfl (by decide)
    ⟨key.field.recovers.whole, trivial, trivial⟩ fun depth => ?_
  simp only [List.map_cons, List.map_nil, key.field.recovers.required,
    (recovers_constant key.direction.named?_name).required, Option.bind_eq_bind, guard_bind,
    ← ite_and]
  simp

theorem covers (key : SortKey) : SortKey.decoder.Covers key.encode key := by
  refine covers_of_structure (fun _ => rfl) (fun _ _ => rfl)
    fun depth limit found inside accepted => ?_
  split at accepted
  · obtain ⟨field, first, accepted⟩ := Option.bind_eq_some_iff.1 accepted
    obtain ⟨direction, -, same⟩ := Option.bind_eq_some_iff.1 accepted
    cases same
    have onField := field.covers.required (inside _ (by simp)) first
    simp only [List.forall_mem_cons]
    exact ⟨onField, Nat.zero_le _, nofun⟩
  · cases accepted

end SortKey

/-! ### Parameters -/

namespace Parameters

/-- No parameter is a floating-point number. -/
def FloatFree (ps : Parameters) : Prop :=
  ∀ entry ∈ ps.entries, ¬ entry.2.IsFloat

theorem recovers {ps : Parameters} (floatFree : ps.FloatFree) :
    Parameters.decoder.Recovers ps.encode ps := by
  have entries : (Decoder.list (.pair .text Literal.decoder)).Recovers
      (.list (ps.entries.map encodeEntry)) ps.entries :=
    recovers_list _ fun entry member =>
      recovers_pair (recovers_text entry.1) (Literal.recovers (floatFree entry member))
  refine recovers_of_structure (fun _ => rfl) (fun _ _ => rfl) rfl (by decide)
    ⟨entries.whole, trivial⟩ fun depth => ?_
  simp only [List.map_cons, List.map_nil, entries.required, Option.bind_eq_bind, guard_bind]
  simp

theorem covers (ps : Parameters) : Parameters.decoder.Covers ps.encode ps := by
  have each : (Decoder.list (.pair .text Literal.decoder)).Covers
      (.list (ps.entries.map encodeEntry)) ps.entries :=
    covers_list fun entry _ => covers_pair (covers_of_flat rfl) entry.2.covers
  refine covers_of_structure (fun _ => rfl) (fun _ _ => rfl)
    fun depth limit found inside accepted => ?_
  split at accepted
  · obtain ⟨entries, first, same⟩ := Option.bind_eq_some_iff.1 accepted
    cases same
    have onEntries := each.required (inside _ (by simp)) first
    simp only [List.forall_mem_cons]
    exact ⟨onEntries, nofun⟩
  · cases accepted

end Parameters

/-! ### Queries -/

namespace Query

theorem recovers {q : Query} (floatFree : q.parameters.FloatFree) :
    Query.decoder.Recovers q.encode q := by
  have select := recovers_list q.select fun s _ => recovers_text s
  have roots := recovers_list q.roots fun root _ => root.recovers
  have joins := recovers_list q.joins fun join _ => join.recovers
  have filter := recovers_encodeOptional q.filter
  have order := recovers_list q.order fun key _ => key.recovers
  have parameters := Parameters.recovers floatFree
  refine recovers_of_structure (fun _ => rfl) (fun _ _ => rfl) rfl (by decide)
    ⟨select.whole, roots.whole, joins.whole, filter.whole, order.whole, parameters.whole, trivial⟩
    fun depth => ?_
  simp only [List.map_cons, List.map_nil, select.required, roots.required, joins.required,
    withDefault, filter.decode_eq, order.required, parameters.required, Option.bind_eq_bind,
    guard_bind, ← ite_and]
  simp

theorem covers (q : Query) : Query.decoder.Covers q.encode q := by
  refine covers_of_structure (fun _ => rfl) (fun _ _ => rfl)
    fun depth limit found inside accepted => ?_
  split at accepted
  · obtain ⟨select, first, accepted⟩ := Option.bind_eq_some_iff.1 accepted
    obtain ⟨roots, second, accepted⟩ := Option.bind_eq_some_iff.1 accepted
    obtain ⟨joins, third, accepted⟩ := Option.bind_eq_some_iff.1 accepted
    obtain ⟨filter, fourth, accepted⟩ := Option.bind_eq_some_iff.1 accepted
    obtain ⟨order, fifth, accepted⟩ := Option.bind_eq_some_iff.1 accepted
    obtain ⟨parameters, sixth, same⟩ := Option.bind_eq_some_iff.1 accepted
    cases same
    have texts : ∀ s ∈ select, Decoder.text.Covers (.text s) s := fun _ _ => covers_of_flat rfl
    have onSelect := (covers_list texts).required (inside _ (by simp)) first
    have onRoots := (covers_list fun root _ => root.covers).required (inside _ (by simp)) second
    have onJoins := (covers_list fun join _ => join.covers).required (inside _ (by simp)) third
    have onFilter := (covers_encodeOptional filter).withDefault
      (by rintro rfl; rfl) (inside _ (by simp)) fourth
    have onOrder := (covers_list fun key _ => key.covers).required (inside _ (by simp)) fifth
    have onParameters := parameters.covers.required (inside _ (by simp)) sixth
    simp only [List.forall_mem_cons]
    exact ⟨onSelect, onRoots, onJoins, onFilter, onOrder, onParameters, nofun⟩
  · cases accepted

end Query

end Criteria
