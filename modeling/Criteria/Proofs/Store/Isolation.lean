import Criteria.Execution.Executor
import Criteria.Proofs.Store.Call

/-!
Calls for one entity and what is read of another one. The separator alone does
not keep entities apart: a name may go on after the name of another entity and a
separator. Wherever no name does, no call reaches beyond its own entity.
-/

set_option autoImplicit false

namespace Criteria

namespace EntityStore

variable {store other : EntityStore} {entity : EntityType} {call : StoreCall}

/-- Nothing that is read of an entity tells the two stores apart. -/
structure Alike (store other : EntityStore) (entity : EntityType) : Prop where
  rows_eq : ∀ limit, other.rows entity limit = store.rows entity limit
  row_eq : ∀ key, other.row entity key = store.row entity key
  load_eq : ∀ config, Executor.load other config entity = Executor.load store config entity

/-- All that is read of an entity is under keys that begin with its name and the separator. -/
theorem alike_of_get? (same : ∀ key, (table entity).keyStart <+: key →
    other.backend.get? key = store.backend.get? key) : store.Alike other entity := by
  have rows : ∀ limit, other.rows entity limit = store.rows entity limit := by
    intro limit
    unfold EntityStore.rows Namespace.scan
    rw [Backend.scan_congr same]
  refine ⟨rows, fun key => ?_, fun config => ?_⟩
  · rw [row_eq, row_eq, same _ (begins_keyBytes entity key)]
  · unfold Executor.load
    rw [rows]

end EntityStore

/-- The call is for an entity that shares keys with the given one. A number holds no separator, so
an insertion only reaches entities whose names its own goes on after. -/
def StoreCall.Reaches : StoreCall → EntityType → Prop
  | .insertRow other _, entity => entity.Nests other
  | .delete other _, entity => entity.Nests other ∨ other.Nests entity

instance (call : StoreCall) (entity : EntityType) : Decidable (call.Reaches entity) :=
  match call with
  | .insertRow other _ => inferInstanceAs (Decidable (entity.Nests other))
  | .delete other _ => inferInstanceAs (Decidable (entity.Nests other ∨ other.Nests entity))

namespace EntityStore

variable {store other : EntityStore} {entity inner : EntityType} {call : StoreCall}
  {answer : StoreAnswer}

/-- No number is a key of an entity whose name goes on after the separator. -/
theorem not_start_rowKey (nested : entity.Nests inner) (n : UInt64) :
    ¬ (table inner).keyStart <+: keyBytes entity (rowKey n) := by
  intro begins
  obtain ⟨more, longer⟩ := nested
  obtain ⟨rest, split⟩ := toList_prefix_of_utf8 begins
  simp only [table, String.toList_append, ← longer, List.append_assoc] at split
  have digits : more ++ (Namespace.separator.toList ++ rest) = (rowKey n).toList :=
    List.append_cancel_left (List.append_cancel_left split)
  have digit := isDigit_rowKey n '#' (digits ▸ by simp [Namespace.separator])
  exact absurd digit (by decide)

theorem Step.get?_eq (step : store.Step call answer other) (different : entity ≠ call.entity)
    (apart : ¬ call.Reaches entity) {key : Bytes} (begins : (table entity).keyStart <+: key) :
    other.backend.get? key = store.backend.get? key := by
  cases step with
  | @inserted inner row _ =>
    have elsewhere : keyBytes inner (rowKey store.nextKey) ≠ key := by
      rintro rfl
      rcases nests_of_start different begins with nested | nested
      · exact apart nested
      · exact not_start_rowKey nested _ begins
    rw [withRow, Backend.get?_put, if_neg elsewhere]
  | @deleted inner asked _ =>
    have elsewhere : keyBytes inner asked ≠ key := by
      rintro rfl
      exact apart (nests_of_start different begins)
    rw [without, Backend.get?_delete, if_neg elsewhere]
  | failed => rfl

/-- A call for one entity leaves all that is read of another one, whatever was done before, unless
it reaches that one. -/
theorem answer_isolated (store : EntityStore) (call : StoreCall) (entity : EntityType)
    (different : entity ≠ call.entity) (apart : ¬ call.Reaches entity) :
    store.Alike (store.answer call).2 entity :=
  alike_of_get? fun _ begins => (store.step_answer call).get?_eq different apart begins

/-- A name that begins with another one, as those of variants do. -/
theorem answer_isolated_variant :
    let store := (({} : EntityStore).answer (.insertRow ⟨"Product"⟩ (.record []))).2
    let call := StoreCall.insertRow ⟨"Product::Variant"⟩ (.record [("size", .number (.int 4))])
    ⟨"Product"⟩ ≠ call.entity ∧ ¬ call.Reaches ⟨"Product"⟩ ∧
      store.Alike (store.answer call).2 ⟨"Product"⟩ :=
  ⟨by decide, by decide, answer_isolated _ _ _ (by decide) (by decide)⟩

/-- Where the separator stands in a name, a row of one entity is found among those of another. -/
theorem rows_nested :
    let store : EntityStore := {}
    let call := StoreCall.insertRow ⟨"a#b"⟩ (.record [("v", .number (.int 1))])
    ⟨"a"⟩ ≠ call.entity ∧ store.rows ⟨"a"⟩ 50 = .ok [] ∧
      (store.answer call).2.rows ⟨"a"⟩ 50 = .ok [.record [("v", .number (.int 1))]] ∧
      ¬ store.Alike (store.answer call).2 ⟨"a"⟩ := by
  refine ⟨by decide, rfl, rfl, fun alike => ?_⟩
  have same := alike.rows_eq 50
  exact absurd (congrArg (fun rows => rows.toOption.map List.length) same) (by decide)

end EntityStore

end Criteria
