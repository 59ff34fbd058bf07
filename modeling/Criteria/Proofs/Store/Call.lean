import Criteria.Proofs.Store.Keys
import Criteria.Proofs.Store.Scan

/-! Insertions and deletions as calls on a store, what each of them can do to it, and runs of
several. The copies of a store share what it holds and its numbers, so their calls are calls on
one store. What holds after every call is proved of the steps. -/

set_option autoImplicit false

namespace Criteria

inductive StoreCall where
  | insertRow (entity : EntityType) (row : Json)
  | delete (entity : EntityType) (key : String)

def StoreCall.entity : StoreCall → EntityType
  | .insertRow entity _ | .delete entity _ => entity

inductive StoreAnswer where
  | inserted (key : String)
  | deleted (found : Bool)
  | failed (e : StorageError)

namespace StoreAnswer

def ofInsertion : Except StorageError String → StoreAnswer
  | .ok key => .inserted key
  | .error e => .failed e

def ofDeletion : Except StorageError Bool → StoreAnswer
  | .ok found => .deleted found
  | .error e => .failed e

/-- The key of a row that was inserted. -/
def key? : StoreAnswer → Option String
  | .inserted key => some key
  | .deleted _ | .failed _ => none

end StoreAnswer

namespace EntityStore

def answer (store : EntityStore) : StoreCall → StoreAnswer × EntityStore
  | .insertRow entity row => (store.insertRow entity row).map .ofInsertion id
  | .delete entity key => (store.delete entity key).map .ofDeletion id

/-- The answers to calls made one after another, and the store that they leave. -/
def run (store : EntityStore) : List StoreCall → List StoreAnswer × EntityStore
  | [] => ([], store)
  | call :: rest =>
    let (answer, store) := store.answer call
    let (answers, store) := store.run rest
    (answer :: answers, store)

variable (store : EntityStore) (entity : EntityType)

/-- The store with one more entry, under its next number. -/
def withRow (row : Json) : EntityStore where
  backend := store.backend.put (keyBytes entity (rowKey store.nextKey)) (utf8 row.render)
  nextKey := store.nextKey + 1

/-- The store without the entry under a key, if there is one. -/
def without (key : String) : EntityStore :=
  { store with backend := (store.backend.delete (keyBytes entity key)).2 }

/-- Rows are records, and no key in the backend is too large. -/
def Accepts : StoreCall → Prop
  | .insertRow entity row =>
    row.isRecord = true ∧ (keyBytes entity (rowKey store.nextKey)).length ≤ Namespace.maxKeySize
  | .delete entity key => (keyBytes entity key).length ≤ Namespace.maxKeySize

/-- An insertion puts the row under the next number, or it fails and what the backend holds stays. -/
theorem insertRow_cases (row : Json) :
    (∃ e n, store.insertRow entity row = (.error e, { store with nextKey := n }) ∧
      (n = store.nextKey ∨ n = store.nextKey + 1) ∧ ¬ store.Accepts (.insertRow entity row)) ∨
    (store.insertRow entity row = (.ok (rowKey store.nextKey), store.withRow entity row) ∧
      store.Accepts (.insertRow entity row)) := by
  cases record : row.isRecord with
  | false =>
    have failed : store.insertRow entity row =
        (.error (.corruptedData (entity.name ++ " rows must be JSON objects")), store) := by
      simp [insertRow, record]
    refine .inl ⟨_, _, failed, .inl rfl, fun accepts => ?_⟩
    cases record.symm.trans accepts.1
  | true =>
    by_cases large : Namespace.maxKeySize < (keyBytes entity (rowKey store.nextKey)).length
    · have failed : store.insertRow entity row =
          (.error (.keyTooLarge (keyBytes entity (rowKey store.nextKey)).length
            Namespace.maxKeySize), { store with nextKey := store.nextKey + 1 }) := by
        simp only [insertRow, record, if_true, Namespace.put, fullKey_eq, if_pos large]
        rfl
      exact .inl ⟨_, _, failed, .inr rfl, fun accepts => Nat.not_le_of_lt large accepts.2⟩
    · have inserted : store.insertRow entity row =
          (.ok (rowKey store.nextKey), store.withRow entity row) := by
        simp only [insertRow, record, if_true, Namespace.put, fullKey_eq, if_neg large]
        rfl
      exact .inr ⟨inserted, record, Nat.not_lt.1 large⟩

/-- A deletion takes away the entry under the key, or the key is too large and nothing is done. -/
theorem delete_eq (key : String) : store.delete entity key =
    if Namespace.maxKeySize < (keyBytes entity key).length then
      (.error (.keyTooLarge (keyBytes entity key).length Namespace.maxKeySize), store)
    else (.ok (store.backend.get? (keyBytes entity key)).isSome, store.without entity key) := by
  unfold delete
  by_cases large : Namespace.maxKeySize < (keyBytes entity key).length
  · simp only [Namespace.delete, fullKey_eq, if_pos large]
    rfl
  · simp only [Namespace.delete, fullKey_eq, if_neg large, ← Backend.delete_fst]
    rfl

/-- What is read under a key is decoded from what the backend holds there. -/
theorem row_eq (key : String) : store.row entity key =
    if Namespace.maxKeySize < (keyBytes entity key).length then
      .error (.keyTooLarge (keyBytes entity key).length Namespace.maxKeySize)
    else match store.backend.get? (keyBytes entity key) with
      | none => .error (.notFound (entity.name ++ "#" ++ key))
      | some text => Namespace.decode key text := by
  unfold row
  by_cases large : Namespace.maxKeySize < (keyBytes entity key).length
  · simp only [Namespace.get?, fullKey_eq, if_pos large]
    rfl
  · simp only [Namespace.get?, fullKey_eq, if_neg large, bind, Except.bind]
    cases store.backend.get? (keyBytes entity key) with
    | none => rfl
    | some text =>
      cases decoded : Namespace.decode (α := Json) key text with
      | error e => simp only [decoded]
      | ok row => simp only [decoded]; rfl

/-! ### Steps -/

variable {store entity} {call : StoreCall} {answer : StoreAnswer} {after : EntityStore}

/-- What a call may answer, and what it leaves of the store. -/
inductive Step (store : EntityStore) : StoreCall → StoreAnswer → EntityStore → Prop where
  | inserted {entity : EntityType} {row : Json} (accepts : store.Accepts (.insertRow entity row)) :
    Step store (.insertRow entity row) (.inserted (rowKey store.nextKey)) (store.withRow entity row)
  | deleted {entity : EntityType} {key : String} (accepts : store.Accepts (.delete entity key)) :
    Step store (.delete entity key) (.deleted (store.backend.get? (keyBytes entity key)).isSome)
      (store.without entity key)
  | failed {call : StoreCall} {e : StorageError} {n : UInt64} (refuses : ¬ store.Accepts call)
    (next : n = store.nextKey ∨ n = store.nextKey + 1) :
    Step store call (.failed e) { store with nextKey := n }

/-- All that a call does is one of these steps. -/
theorem step_answer (store : EntityStore) (call : StoreCall) :
    store.Step call (store.answer call).1 (store.answer call).2 := by
  cases call with
  | insertRow entity row =>
    rcases store.insertRow_cases entity row with ⟨e, n, failed, next, refuses⟩ | ⟨done, accepts⟩
    · rw [EntityStore.answer, failed]
      exact .failed refuses next
    · rw [EntityStore.answer, done]
      exact .inserted accepts
  | delete entity key =>
    rw [EntityStore.answer, delete_eq]
    split
    · next large => exact .failed (Nat.not_le_of_lt large) (.inl rfl)
    · next small => exact .deleted (Nat.not_lt.1 small)

namespace Step

/-- No call uses up more than one number. -/
theorem nextKey_eq (step : store.Step call answer after) :
    after.nextKey = store.nextKey ∨ after.nextKey = store.nextKey + 1 := by
  cases step with
  | inserted => exact .inr rfl
  | deleted => exact .inl rfl
  | failed _ next => exact next

theorem toNat_nextKey_le (step : store.Step call answer after) :
    after.nextKey.toNat ≤ store.nextKey.toNat + 1 := by
  rcases step.nextKey_eq with kept | counted
  · rw [kept]
    omega
  · rw [counted, UInt64.toNat_add]
    exact Nat.mod_le _ _

/-- A key that is returned is the next number, which is then used up. -/
theorem key?_eq (step : store.Step call answer after) : answer.key? = none ∨
    answer.key? = some (rowKey store.nextKey) ∧ after.nextKey = store.nextKey + 1 := by
  cases step with
  | inserted => exact .inr ⟨rfl, rfl⟩
  | deleted => exact .inl rfl
  | failed => exact .inl rfl

end Step

end EntityStore

end Criteria
