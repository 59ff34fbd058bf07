import Criteria.Entity
import Criteria.Store.Namespace

/-!
Rows of entities. Each entity type is a namespace, and rows are kept under
numbers that count up, written with as many digits as any of them needs, so
that the order of the keys is the order of insertion.
-/

set_option autoImplicit false

namespace Criteria

/-- Values that are rows of an entity type. -/
class Entity (α : Type) extends Storable α where
  entityType : EntityType

structure EntityStore where
  backend : Backend := {}
  nextKey : UInt64 := 1

namespace EntityStore

/-- A store over a backend, which counts from one whatever the backend holds. -/
def ofBackend (b : Backend) : EntityStore :=
  { backend := b }

def table (entity : EntityType) : Namespace :=
  ⟨entity.name⟩

/-- A number as a key of twenty digits. -/
def rowKey (n : UInt64) : String :=
  let digits := Nat.toDigits 10 n.toNat
  String.ofList (List.replicate (20 - digits.length) '0' ++ digits)

/-- Inserts a row under the next key. The key is used up even if it turns out too large. -/
def insertRow (store : EntityStore) (entity : EntityType) (row : Json) :
    Except StorageError String × EntityStore :=
  if row.isRecord then
    let key := rowKey store.nextKey
    let counted := { store with nextKey := store.nextKey + 1 }
    match (table entity).put store.backend key row with
    | .ok b => (.ok key, { counted with backend := b })
    | .error e => (.error e, counted)
  else (.error (.corruptedData (entity.name ++ " rows must be JSON objects")), store)

def row (store : EntityStore) (entity : EntityType) (key : String) : Except StorageError Json := do
  match ← (table entity).get? store.backend key with
  | some row => return row
  | none => throw (.notFound (entity.name ++ "#" ++ key))

/-- Deletes a row, and tells whether there was one. -/
def delete (store : EntityStore) (entity : EntityType) (key : String) :
    Except StorageError Bool × EntityStore :=
  match (table entity).delete store.backend key with
  | .ok (found, b) => (.ok found, { store with backend := b })
  | .error e => (.error e, store)

def rows (store : EntityStore) (entity : EntityType) (limit : Nat) :
    Except StorageError (List Json) := do
  let entries ← (table entity).scan store.backend limit
  return entries.map Prod.snd

variable {α : Type} [Entity α]

/-- Inserts a value as a row of its entity type. -/
def insert (store : EntityStore) (value : α) : Except StorageError String × EntityStore :=
  let entity := Entity.entityType α
  match Storable.encode value with
  | .ok row => store.insertRow entity row
  | .error detail =>
    (.error (.serialization ("failed to encode " ++ entity.name ++ ": " ++ detail)), store)

def load (store : EntityStore) (limit : Nat) : Except StorageError (List α) := do
  let entries ← (table (Entity.entityType α)).scan store.backend limit
  return entries.map Prod.snd

end EntityStore

end Criteria
