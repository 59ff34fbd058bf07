import Criteria.Proofs.Store.Call

/-!
Insertions that take the place of no other row. The numbers of a store count
from one whatever its backend holds, so this is a matter of the numbers under
which the backend holds rows: as long as the counter is ahead of them, each
insertion finds a free key and leaves all entries as they are.
-/

set_option autoImplicit false

namespace Criteria

namespace EntityStore

variable {store : EntityStore} {entity : EntityType} {key : String} {row : Json}

/-- The entity has no row under a number that is still to come. -/
def Ahead (store : EntityStore) (entity : EntityType) : Prop :=
  ∀ n, store.nextKey ≤ n → store.backend.get? (keyBytes entity (rowKey n)) = none

/-- A later number is not under the key of a number that is used now, whatever the entities. -/
theorem keyBytes_ne_of_lt {other : EntityType} {m n : UInt64} (less : m < n) :
    keyBytes other (rowKey m) ≠ keyBytes entity (rowKey n) := by
  intro same
  exact UInt64.lt_irrefl n (number_eq_of_keyBytes same ▸ less)

theorem lt_nextKey_succ (room : store.nextKey.toNat + 1 < 2 ^ 64) :
    store.nextKey < store.nextKey + 1 := by
  rw [UInt64.lt_iff_toNat_lt, UInt64.toNat_add]
  have one : (1 : UInt64).toNat = 1 := rfl
  omega

theorem Ahead.step {call : StoreCall} {answer : StoreAnswer} {after : EntityStore}
    (ahead : store.Ahead entity) (step : store.Step call answer after)
    (room : store.nextKey.toNat + 1 < 2 ^ 64) : after.Ahead entity := by
  intro n later
  have free : store.backend.get? (keyBytes entity (rowKey n)) = none := by
    refine ahead n (UInt64.le_trans ?_ later)
    rcases step.nextKey_eq with kept | counted
    · exact kept ▸ UInt64.le_refl _
    · exact counted ▸ UInt64.le_of_lt (lt_nextKey_succ room)
  cases step with
  | @inserted other row _ =>
    have elsewhere : keyBytes other (rowKey store.nextKey) ≠ keyBytes entity (rowKey n) :=
      keyBytes_ne_of_lt (UInt64.lt_of_lt_of_le (lt_nextKey_succ room) later)
    rw [withRow, Backend.get?_put, if_neg elsewhere, free]
  | deleted =>
    rw [without, Backend.get?_delete]
    split
    · rfl
    · exact free
  | failed => exact free

theorem Ahead.run {calls : List StoreCall} (ahead : store.Ahead entity)
    (room : store.nextKey.toNat + calls.length < 2 ^ 64) : (store.run calls).2.Ahead entity := by
  induction calls generalizing store with
  | nil => exact ahead
  | cons call rest ih =>
    rw [List.length_cons] at room
    have step := store.step_answer call
    have next := step.toNat_nextKey_le
    have left : (store.answer call).2.nextKey.toNat + rest.length < 2 ^ 64 := by omega
    exact ih (ahead.step step (by omega)) left

/-- An insertion that succeeds has found a free key and leaves every entry as it is. -/
theorem Ahead.insertRow (ahead : store.Ahead entity)
    (inserted : (store.insertRow entity row).1 = .ok key) :
    store.backend.get? (keyBytes entity key) = none ∧
      ∀ full text, store.backend.get? full = some text →
        (store.insertRow entity row).2.backend.get? full = some text := by
  rcases store.insertRow_cases entity row with ⟨e, n, failed, -⟩ | ⟨done, -⟩
  · rw [failed] at inserted
    cases inserted
  · rw [done] at inserted ⊢
    obtain rfl := Except.ok.inj inserted
    have free := ahead store.nextKey (UInt64.le_refl _)
    refine ⟨free, fun full text held => ?_⟩
    have elsewhere : keyBytes entity (rowKey store.nextKey) ≠ full := by
      rintro rfl
      cases free.symm.trans held
    simp only [withRow, Backend.get?_put, if_neg elsewhere, held]

/-- In a store over a backend that holds no row of the entity, an insertion finds a free key and
leaves every entry as it is, whatever else was done before it. -/
theorem insertRow_ofBackend (b : Backend) (entity : EntityType)
    (unused : ∀ n : UInt64, 1 ≤ n → b.get? (keyBytes entity (rowKey n)) = none)
    (calls : List StoreCall) (few : calls.length + 1 < 2 ^ 64) (row : Json) (key : String)
    (inserted : (((ofBackend b).run calls).2.insertRow entity row).1 = .ok key) :
    let store := ((ofBackend b).run calls).2
    store.backend.get? (keyBytes entity key) = none ∧
      ∀ full text, store.backend.get? full = some text →
        (store.insertRow entity row).2.backend.get? full = some text := by
  have ahead : (ofBackend b).Ahead entity := unused
  have room : (ofBackend b).nextKey.toNat + calls.length < 2 ^ 64 := by
    have one : (ofBackend b).nextKey.toNat = 1 := rfl
    omega
  exact (ahead.run room).insertRow inserted

/-- The entity has no row, and another one has some. -/
theorem insertRow_ofBackend_orders :
    let b := (({} : EntityStore).insertRow ⟨"User"⟩ (.record [])).2.backend
    let store := ((ofBackend b).run [.insertRow ⟨"Order"⟩ (.record []), .delete ⟨"Order"⟩ "7"]).2
    store.backend.get? (keyBytes ⟨"Order"⟩ "00000000000000000002") = none ∧
      ∀ full text, store.backend.get? full = some text →
        (store.insertRow ⟨"Order"⟩ (.record [])).2.backend.get? full = some text := by
  refine insertRow_ofBackend _ ⟨"Order"⟩ (fun n _ => ?_)
    [.insertRow ⟨"Order"⟩ (.record []), .delete ⟨"Order"⟩ "7"] (by decide) (.record []) _ rfl
  have elsewhere : keyBytes ⟨"User"⟩ "00000000000000000001" ≠ keyBytes ⟨"Order"⟩ (rowKey n) := by
    intro same
    exact absurd (eq_of_keyBytes (by decide) (by decide) same).1 (by decide)
  exact (Backend.get?_put _ _ _ _).trans (if_neg elsewhere)

/-- A store opened on a backend that another store has filled counts from one again, and the first
row takes the place of the one there. -/
theorem insertRow_reopened :
    let entity : EntityType := ⟨"a"⟩
    let filled := ({} : EntityStore).insertRow entity (.record [("v", .number (.int 1))])
    let reopened := ofBackend filled.2.backend
    let again := reopened.insertRow entity (.record [("v", .number (.int 2))])
    filled.1 = .ok "00000000000000000001" ∧ again.1 = .ok "00000000000000000001" ∧
      reopened.rows entity 50 = .ok [.record [("v", .number (.int 1))]] ∧
      again.2.rows entity 50 = .ok [.record [("v", .number (.int 2))]] :=
  ⟨rfl, rfl, rfl, rfl⟩

end EntityStore

end Criteria
