import Criteria.Proofs.Json.Decoder
import Criteria.Proofs.Store.Call

/-!
The rows that were inserted and not deleted since, in the order of their
insertion, as the calls and their answers tell. What the backend of a store holds
is the same rows as text, each under a number that is greater than those of all
rows before it. Every call keeps it so.
-/

set_option autoImplicit false

namespace Criteria

/-- A row that was inserted and not deleted since. -/
structure LiveRow where
  entity : EntityType
  key : String
  row : Json

/-- The row of this entity under this key. -/
def LiveRow.Is (live : LiveRow) (entity : EntityType) (key : String) : Prop :=
  live.entity = entity ∧ live.key = key

instance (live : LiveRow) (entity : EntityType) (key : String) : Decidable (live.Is entity key) :=
  inferInstanceAs (Decidable (_ ∧ _))

/-- Rows in the order in which they were inserted. -/
abbrev Table := List LiveRow

namespace Table

def rowsOf (table : Table) (entity : EntityType) : List Json :=
  (table.filter fun live => live.entity = entity).map LiveRow.row

def row? (table : Table) (entity : EntityType) (key : String) : Option Json :=
  (table.find? fun live => live.Is entity key).map LiveRow.row

/-- A row that an insertion answers with a key is the last one. -/
def after (table : Table) : StoreCall → StoreAnswer → Table
  | .insertRow entity row, .inserted key => table ++ [⟨entity, key, row⟩]
  | .insertRow _ _, _ => table
  | .delete entity key, _ => table.filter fun live => ¬ live.Is entity key

def afterAll (table : Table) : List StoreCall → List StoreAnswer → Table
  | call :: calls, answer :: answers => (table.after call answer).afterAll calls answers
  | _, _ => table

end Table

/-- A record that is inserted comes back from its text. -/
def StoreCall.Keeps : StoreCall → Prop
  | .insertRow _ row => row.isRecord = true → row.Kept
  | .delete _ _ => True

namespace EntityStore

variable {store : EntityStore} {table : Table} {bound : Nat} {entity : EntityType} {key : String}
  {row : Json}

/-- What is known of a row in the store, whose number is below the bound. -/
structure Stored (live : LiveRow) (bound : Nat) : Prop where
  plain : live.entity.IsPlain
  kept : live.row.Kept
  small : (keyBytes live.entity live.key).length ≤ Namespace.maxKeySize
  numbered : ∃ n : UInt64, n.toNat < bound ∧ live.key = rowKey n

theorem Stored.mono {live : LiveRow} {more : Nat} (stored : Stored live bound)
    (grown : bound ≤ more) : Stored live more := by
  obtain ⟨n, below, key⟩ := stored.numbered
  exact ⟨stored.plain, stored.kept, stored.small, n, Nat.lt_of_lt_of_le below grown, key⟩

def Before (first second : LiveRow) : Prop :=
  ∃ m n : UInt64, m < n ∧ first.key = rowKey m ∧ second.key = rowKey n

/-- The backend holds the rows of the table and nothing else. The counter is kept as a number that
does not wrap: it may have come to the first number beyond 64 bits. -/
structure Represents (store : EntityStore) (table : Table) (bound : Nat) : Prop where
  next : store.nextKey = UInt64.ofNat bound
  entries : ∀ full text, store.backend.get? full = some text ↔
    ∃ live ∈ table, keyBytes live.entity live.key = full ∧ utf8 live.row.render = text
  stored : ∀ live ∈ table, Stored live bound
  ordered : table.Pairwise Before

namespace Represents

theorem empty : Represents {} [] 1 where
  next := rfl
  entries full text := by
    have nothing : ({} : EntityStore).backend.get? full = none := rfl
    simp [nothing]
  stored := nofun
  ordered := .nil

theorem toNat_nextKey (represents : Represents store table bound) (room : bound < 2 ^ 64) :
    store.nextKey.toNat = bound := by
  rw [represents.next, UInt64.toNat_ofNat']
  omega

/-- No row that is there has the next number. -/
theorem fresh (represents : Represents store table bound) (room : bound < 2 ^ 64) {live : LiveRow}
    (member : live ∈ table) :
    keyBytes live.entity live.key ≠ keyBytes entity (rowKey store.nextKey) := by
  intro same
  obtain ⟨n, below, key⟩ := (represents.stored live member).numbered
  have number := number_eq_of_keyBytes (key ▸ same)
  rw [number, represents.toNat_nextKey room] at below
  exact Nat.lt_irrefl bound below

theorem withRow (represents : Represents store table bound) (room : bound < 2 ^ 64)
    (plain : entity.IsPlain) (kept : row.Kept)
    (small : (keyBytes entity (rowKey store.nextKey)).length ≤ Namespace.maxKeySize) :
    Represents (store.withRow entity row) (table ++ [⟨entity, rowKey store.nextKey, row⟩])
      (bound + 1) := by
  have number := represents.toNat_nextKey room
  refine ⟨?_, fun full text => ?_, ?_, ?_⟩
  · rw [EntityStore.withRow, represents.next, UInt64.ofNat_add]
    rfl
  · simp only [EntityStore.withRow, Backend.get?_put, List.mem_append, List.mem_singleton,
      or_and_right, exists_or, exists_eq_left]
    split
    · next same =>
      have none : ¬ ∃ live ∈ table, keyBytes live.entity live.key = full ∧
          utf8 live.row.render = text := by
        rintro ⟨live, member, key, -⟩
        exact represents.fresh room member (key.trans same.symm)
      simp only [none, same, Option.some.injEq, true_and, false_or]
    · next other => simp only [represents.entries, other, false_and, or_false]
  · intro live member
    rcases List.mem_append.1 member with old | new
    · exact (represents.stored live old).mono (Nat.le_succ bound)
    · obtain rfl := List.mem_singleton.1 new
      exact ⟨plain, kept, small, store.nextKey, by omega, rfl⟩
  · refine List.pairwise_append.2 ⟨represents.ordered, List.pairwise_singleton _ _, ?_⟩
    intro live old new member
    obtain rfl := List.mem_singleton.1 member
    obtain ⟨n, below, key⟩ := (represents.stored live old).numbered
    exact ⟨n, store.nextKey, UInt64.lt_iff_toNat_lt.2 (by omega), key, rfl⟩

theorem keyBytes_eq_iff (represents : Represents store table bound) (plain : entity.IsPlain)
    {live : LiveRow} (member : live ∈ table) :
    keyBytes live.entity live.key = keyBytes entity key ↔ live.Is entity key := by
  constructor
  · exact eq_of_keyBytes (represents.stored live member).plain plain
  · rintro ⟨rfl, rfl⟩
    rfl

theorem without (represents : Represents store table bound) (plain : entity.IsPlain) :
    Represents (store.without entity key) (table.filter fun live => ¬ live.Is entity key) bound := by
  refine ⟨represents.next, fun full text => ?_, fun live member => ?_, represents.ordered.filter _⟩
  · simp only [EntityStore.without, Backend.get?_delete, List.mem_filter, decide_eq_true_eq]
    constructor
    · intro held
      split at held
      · cases held
      · next other =>
        obtain ⟨live, member, same, written⟩ := (represents.entries full text).1 held
        refine ⟨live, ⟨member, fun found => other ?_⟩, same, written⟩
        exact ((represents.keyBytes_eq_iff plain member).2 found).symm.trans same
    · rintro ⟨live, ⟨member, other⟩, same, written⟩
      rw [if_neg, represents.entries]
      · exact ⟨live, member, same, written⟩
      · intro gone
        exact other ((represents.keyBytes_eq_iff plain member).1 (same.trans gone.symm))
  · exact represents.stored live (List.mem_of_mem_filter member)

/-- No row is under a key that is too large. -/
theorem not_is_of_large (represents : Represents store table bound)
    (large : Namespace.maxKeySize < (keyBytes entity key).length) {live : LiveRow}
    (member : live ∈ table) : ¬ live.Is entity key := by
  rintro ⟨rfl, rfl⟩
  exact Nat.not_le_of_lt large (represents.stored live member).small

theorem counted (represents : Represents store table bound) :
    Represents { store with nextKey := store.nextKey + 1 } table (bound + 1) where
  next := by
    rw [represents.next, UInt64.ofNat_add]
    rfl
  entries := represents.entries
  stored live member := (represents.stored live member).mono (Nat.le_succ bound)
  ordered := represents.ordered

/-- What a call does to the store, its answer tells of the table. -/
theorem step {call : StoreCall} {answer : StoreAnswer} {after : EntityStore}
    (represents : Represents store table bound) (step : store.Step call answer after)
    (room : bound < 2 ^ 64) (plain : call.entity.IsPlain) (keeps : call.Keeps) :
    ∃ more ≤ bound + 1, Represents after (table.after call answer) more := by
  cases step with
  | inserted accepts =>
    exact ⟨bound + 1, Nat.le_refl _,
      represents.withRow room plain (keeps accepts.1) accepts.2⟩
  | deleted => exact ⟨bound, Nat.le_succ bound, represents.without plain⟩
  | @failed _ e _ refuses next =>
    have same : table.after call (.failed e) = table := by
      cases call with
      | insertRow => rfl
      | delete entity key =>
        have large : Namespace.maxKeySize < (keyBytes entity key).length := Nat.not_le.1 refuses
        exact List.filter_eq_self.2 fun live member =>
          decide_eq_true (represents.not_is_of_large large member)
    rw [same]
    rcases next with rfl | rfl
    · exact ⟨bound, Nat.le_succ bound, represents⟩
    · exact ⟨bound + 1, Nat.le_refl _, represents.counted⟩

theorem run {calls : List StoreCall} (represents : Represents store table bound)
    (room : bound + calls.length ≤ 2 ^ 64) (plain : ∀ call ∈ calls, call.entity.IsPlain)
    (keeps : ∀ call ∈ calls, call.Keeps) :
    ∃ more, Represents (store.run calls).2 (table.afterAll calls (store.run calls).1) more := by
  induction calls generalizing store table bound with
  | nil => exact ⟨bound, represents⟩
  | cons call rest ih =>
    obtain ⟨firstPlain, restPlain⟩ := List.forall_mem_cons.1 plain
    obtain ⟨firstKeeps, restKeeps⟩ := List.forall_mem_cons.1 keeps
    rw [List.length_cons] at room
    obtain ⟨more, next, after⟩ :=
      represents.step (store.step_answer call) (by omega) firstPlain firstKeeps
    exact ih after (by omega) restPlain restKeeps

end Represents

end EntityStore

end Criteria
