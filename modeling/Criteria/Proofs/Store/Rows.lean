import Criteria.Execution.Executor
import Criteria.Proofs.Store.Scan
import Criteria.Proofs.Traversal

/-! The rows of an entity under a limit, which does not shorten them as long as it allows for all
of them. -/

set_option autoImplicit false

namespace Criteria

namespace EntityStore

variable {store : EntityStore} {entity : EntityType} {rows : List Json} {e : StorageError}
  {limit more : Nat}

/-- How many rows an entity has, whether or not they can be decoded. -/
def count (store : EntityStore) (entity : EntityType) : Nat :=
  (store.backend.entriesUnder (table entity).keyStart).length

theorem count_le_size (store : EntityStore) (entity : EntityType) :
    store.count entity ≤ store.backend.size :=
  calc
    _ ≤ store.backend.entries.length := List.length_filter_le _ _
    _ = store.backend.size := Std.TreeMap.length_toList

theorem length_of_rows (loaded : store.rows entity limit = .ok rows) :
    rows.length = min limit (store.count entity) := by
  obtain ⟨entries, scanned, values⟩ := bind_eq_ok_iff.1 loaded
  rw [← Except.ok.inj values, List.length_map, ← (mapM_eq_ok_iff.1 scanned).length_eq,
    Backend.scan_eq_take, List.length_take]
  rfl

/-- All limits that allow for every row give the same. -/
theorem rows_congr (enough : store.count entity ≤ limit) (enough' : store.count entity ≤ more) :
    store.rows entity limit = store.rows entity more := by
  have all := List.take_of_length_le enough
  have all' := List.take_of_length_le enough'
  unfold rows Namespace.scan
  rw [Backend.scan_eq_take, Backend.scan_eq_take, all, all']

/-- A row that cannot be decoded is come to under every greater limit, too. -/
theorem rows_eq_error_of_le (failed : store.rows entity limit = .error e) (le : limit ≤ more) :
    store.rows entity more = .error e := by
  obtain ⟨rest, rfl⟩ := Nat.exists_eq_add_of_le le
  rcases bind_eq_error_iff.1 failed with failed | ⟨entries, -, done⟩
  · rw [Namespace.scan, Backend.scan_eq_take] at failed
    unfold rows Namespace.scan
    rw [Backend.scan_eq_take, List.take_add, List.mapM_append, failed]
    rfl
  · cases done

/-- The rows of an entity. No namespace has more values than the backend has entries. -/
def allRows (store : EntityStore) (entity : EntityType) : Except StorageError (List Json) :=
  store.rows entity store.backend.size

theorem rows_eq (loaded : store.allRows entity = .ok rows) (enough : rows.length ≤ limit) :
    store.rows entity limit = .ok rows := by
  have length := length_of_rows loaded
  have bound := store.count_le_size entity
  exact (rows_congr (by omega) bound).trans loaded

/-! ### A small store -/

def user : EntityType := ⟨"app.User"⟩

def order : EntityType := ⟨"app.Order"⟩

/-- Two users, and an order of the second one between them. -/
def shop : EntityStore :=
  let first := ({} : EntityStore).insertRow user (.record [("id", .number (.int 1))])
  let second := first.2.insertRow order (.record [("buyer", .number (.int 2))])
  (second.2.insertRow user (.record [("id", .number (.int 2))])).2

def shopRows (entity : EntityType) : List Json :=
  if entity = user then [.record [("id", .number (.int 1))], .record [("id", .number (.int 2))]]
  else if entity = order then [.record [("buyer", .number (.int 2))]]
  else []

theorem allRows_shop : shop.allRows user = .ok (shopRows user) ∧
    shop.allRows order = .ok (shopRows order) := ⟨rfl, rfl⟩

end EntityStore

theorem ExecutorConfig.le_rowsToLoad (config : ExecutorConfig) :
    config.maxRowsPerEntity ≤ config.rowsToLoad := by
  unfold rowsToLoad
  split <;> omega

theorem Executor.load_eq {store : EntityStore} {config : ExecutorConfig} {entity : EntityType}
    {rows : List Json} (loaded : store.allRows entity = .ok rows)
    (within : rows.length ≤ config.maxRowsPerEntity) : load store config entity = .ok rows := by
  have asked : rows.length ≤ config.rowsToLoad := Nat.le_trans within config.le_rowsToLoad
  unfold load
  rw [EntityStore.rows_eq loaded asked]
  exact if_neg (Nat.not_lt.2 within)

end Criteria
