import Criteria.Proofs.Store.Isolation
import Criteria.Proofs.Store.Readback

/-!
What is read of a store is what its table says. A scan comes to the rows of an
entity in the order of their numbers, and each row is read from its text as it
was inserted.
-/

set_option autoImplicit false

namespace Criteria

namespace EntityStore

variable {store : EntityStore} {table : Table} {bound : Nat} {entity : EntityType} {key : String}
  {row : Json}

namespace Represents

/-- The entries of an entity are its rows in the order of their insertion. -/
theorem entriesUnder_eq (represents : Represents store table bound) (plain : entity.IsPlain) :
    store.backend.entriesUnder (EntityStore.table entity).keyStart =
      (table.filter fun live => live.entity = entity).map fun live =>
        (keyBytes live.entity live.key, utf8 live.row.render) := by
  refine Backend.entriesUnder_eq (List.pairwise_map.2 ?_) fun full text => ?_
  · refine (represents.ordered.filter _).imp_of_mem ?_
    intro first second firstMember secondMember before
    obtain ⟨m, n, less, firstKey, secondKey⟩ := before
    have firstEntity : first.entity = entity := by simpa using (List.mem_filter.1 firstMember).2
    have secondEntity : second.entity = entity := by simpa using (List.mem_filter.1 secondMember).2
    rw [firstKey, secondKey, firstEntity, secondEntity]
    exact compare_keyBytes_of_lt less
  · simp only [List.mem_map, List.mem_filter, decide_eq_true_eq, Prod.mk.injEq]
    constructor
    · rintro ⟨live, ⟨member, rfl⟩, rfl, rfl⟩
      exact ⟨begins_keyBytes _ _, (represents.entries _ _).2 ⟨live, member, rfl, rfl⟩⟩
    · rintro ⟨begins, held⟩
      obtain ⟨live, member, rfl, written⟩ := (represents.entries full text).1 held
      have same := eq_of_start plain (represents.stored live member).plain begins
      exact ⟨live, ⟨member, same.symm⟩, rfl, written⟩

theorem decode_render (kept : row.Kept) (key : String) :
    Namespace.decode key (utf8 row.render) = .ok row :=
  (Namespace.decode_render kept.sorted kept.whole key).trans (if_pos kept.shallow)

theorem decodeEntry_eq {live : LiveRow} (kept : live.row.Kept) :
    (EntityStore.table live.entity).decodeEntry
      (keyBytes live.entity live.key, utf8 live.row.render) = .ok (live.key, live.row) := by
  rw [decodeEntry_keyBytes, decode_render kept]
  rfl

theorem rows_eq (represents : Represents store table bound) (plain : entity.IsPlain) (limit : Nat) :
    store.rows entity limit = .ok ((table.rowsOf entity).take limit) := by
  have entries : (EntityStore.table entity).scan store.backend limit =
      .ok (((table.filter fun live => live.entity = entity).take limit).map fun live =>
        (live.key, live.row)) := by
    rw [Namespace.scan, Backend.scan_eq_take, represents.entriesUnder_eq plain, ← List.map_take,
      mapM_eq_ok_iff, List.forall₂_map_left_iff, List.forall₂_map_right_iff, List.forall₂_same]
    intro live member
    obtain ⟨held, same⟩ := List.mem_filter.1 (List.mem_of_mem_take member)
    obtain rfl : live.entity = entity := by simpa using same
    exact decodeEntry_eq (represents.stored live held).kept
  rw [EntityStore.rows, entries, Table.rowsOf, ← List.map_take, ok_bind, List.map_map]
  rfl

theorem get?_eq (represents : Represents store table bound) (plain : entity.IsPlain) :
    store.backend.get? (keyBytes entity key) =
      (table.row? entity key).map fun row => utf8 row.render := by
  unfold Table.row?
  cases found : table.find? fun live => live.Is entity key with
  | none =>
    refine Option.eq_none_iff_forall_ne_some.2 fun text held => ?_
    obtain ⟨live, member, same, -⟩ := (represents.entries _ text).1 held
    have absent := List.find?_eq_none.1 found live member
    exact absent (decide_eq_true ((represents.keyBytes_eq_iff plain member).1 same))
  | some live =>
    have member := List.mem_of_find?_eq_some found
    have here : live.Is entity key := by simpa using List.find?_some found
    exact (represents.entries _ _).2
      ⟨live, member, (represents.keyBytes_eq_iff plain member).2 here, rfl⟩

theorem kept_of_row? (represents : Represents store table bound)
    (found : table.row? entity key = some row) : row.Kept := by
  obtain ⟨live, first, rfl⟩ := Option.map_eq_some_iff.1 found
  exact (represents.stored live (List.mem_of_find?_eq_some first)).kept

theorem row_eq (represents : Represents store table bound) (plain : entity.IsPlain)
    (small : (keyBytes entity key).length ≤ Namespace.maxKeySize) :
    store.row entity key = match table.row? entity key with
      | some row => .ok row
      | none => .error (.notFound (entity.name ++ "#" ++ key)) := by
  rw [EntityStore.row_eq, if_neg (Nat.not_lt.2 small), represents.get?_eq plain]
  cases found : table.row? entity key with
  | none => rfl
  | some row => exact decode_render (represents.kept_of_row? found) key

theorem delete_eq (represents : Represents store table bound) (plain : entity.IsPlain)
    (small : (keyBytes entity key).length ≤ Namespace.maxKeySize) :
    (store.delete entity key).1 = .ok (table.row? entity key).isSome := by
  rw [EntityStore.delete_eq, if_neg (Nat.not_lt.2 small), represents.get?_eq plain, Option.isSome_map]

theorem delete_of_large (represents : Represents store table bound)
    (large : Namespace.maxKeySize < (keyBytes entity key).length) :
    (store.delete entity key).1 ≠ .ok true ∧ table.row? entity key = none := by
  refine ⟨by simp [EntityStore.delete_eq, if_pos large], ?_⟩
  rw [Table.row?, Option.map_eq_none_iff, List.find?_eq_none]
  exact fun live member found =>
    represents.not_is_of_large large member (of_decide_eq_true found)

end Represents

/-- What is read of the store, and what further calls answer, is what the table says. -/
structure Shows (store : EntityStore) (table : Table) : Prop where
  rows_eq : ∀ entity, entity.IsPlain → ∀ limit,
    store.rows entity limit = .ok ((table.rowsOf entity).take limit)
  row_eq : ∀ entity, entity.IsPlain → ∀ key,
    (keyBytes entity key).length ≤ Namespace.maxKeySize →
      store.row entity key = match table.row? entity key with
        | some row => .ok row
        | none => .error (.notFound (entity.name ++ "#" ++ key))
  delete_eq : ∀ entity, entity.IsPlain → ∀ key,
    (keyBytes entity key).length ≤ Namespace.maxKeySize →
      (store.delete entity key).1 = .ok (table.row? entity key).isSome
  delete_iff : ∀ entity, entity.IsPlain → ∀ key,
    (store.delete entity key).1 = .ok true ↔ (table.row? entity key).isSome = true
  insertRow_iff : ∀ entity row,
    (∃ key, (store.insertRow entity row).1 = .ok key) ↔ store.Accepts (.insertRow entity row)
  insertRow_failed : ∀ entity row e, (store.insertRow entity row).1 = .error e →
    ∀ other, store.Alike (store.insertRow entity row).2 other

theorem Represents.shows (represents : Represents store table bound) : store.Shows table where
  rows_eq _ plain limit := represents.rows_eq plain limit
  row_eq _ plain _ small := represents.row_eq plain small
  delete_eq _ plain _ small := represents.delete_eq plain small
  delete_iff entity plain key := by
    by_cases large : Namespace.maxKeySize < (keyBytes entity key).length
    · obtain ⟨failed, absent⟩ := represents.delete_of_large large
      simp [failed, absent]
    · rw [represents.delete_eq plain (Nat.not_lt.1 large), Except.ok.injEq]
  insertRow_iff entity row := by
    rcases store.insertRow_cases entity row with ⟨e, n, failed, -, refuses⟩ | ⟨inserted, accepts⟩
    · simp [failed, refuses]
    · simp [inserted, accepts]
  insertRow_failed entity row e failure other := by
    rcases store.insertRow_cases entity row with ⟨_, n, failed, -⟩ | ⟨inserted, -⟩
    · rw [failed]
      exact alike_of_get? fun _ _ => rfl
    · rw [inserted] at failure
      cases failure

/-- The keys that a run returns are those of different numbers, none of them used before. -/
theorem keys_run {calls : List StoreCall} (next : store.nextKey = UInt64.ofNat bound)
    (room : bound + calls.length ≤ 2 ^ 64) :
    ((store.run calls).1.filterMap StoreAnswer.key?).Nodup ∧
      ∀ key ∈ (store.run calls).1.filterMap StoreAnswer.key?,
        ∃ n : UInt64, bound ≤ n.toNat ∧ key = rowKey n := by
  induction calls generalizing store bound with
  | nil => exact ⟨.nil, nofun⟩
  | cons call rest ih =>
    rw [List.length_cons] at room
    have succ : UInt64.ofNat (bound + 1) = store.nextKey + 1 := by
      rw [next, UInt64.ofNat_add]
      rfl
    rw [EntityStore.run]
    have step := store.step_answer call
    rcases step.key?_eq with none | ⟨found, counted⟩
    · rw [List.filterMap_cons_none none]
      rcases step.nextKey_eq with kept | counted
      · exact ih (kept.trans next) (by omega)
      · obtain ⟨distinct, later⟩ := ih (counted.trans succ.symm) (by omega)
        refine ⟨distinct, fun key member => ?_⟩
        obtain ⟨n, above, same⟩ := later key member
        exact ⟨n, by omega, same⟩
    · rw [List.filterMap_cons_some found]
      obtain ⟨distinct, later⟩ := ih (counted.trans succ.symm) (by omega)
      have number : store.nextKey.toNat = bound := by
        rw [next, UInt64.toNat_ofNat']
        omega
      refine ⟨List.nodup_cons.2 ⟨fun again => ?_, distinct⟩, fun key member => ?_⟩
      · obtain ⟨n, above, same⟩ := later _ again
        rw [← number_eq_of_rowKey same] at above
        omega
      · rcases List.mem_cons.1 member with rfl | member
        · exact ⟨store.nextKey, Nat.le_of_eq number.symm, rfl⟩
        · obtain ⟨n, above, same⟩ := later key member
          exact ⟨n, by omega, same⟩

/-- A store that nothing was in before shows the rows that were inserted and not deleted since, and
has returned a key of its own for each insertion. -/
theorem run_shows_table (calls : List StoreCall) (few : calls.length < 2 ^ 64)
    (plain : ∀ call ∈ calls, call.entity.IsPlain) (keeps : ∀ call ∈ calls, call.Keeps) :
    let ran := ({} : EntityStore).run calls
    (ran.1.filterMap StoreAnswer.key?).Nodup ∧ ran.2.Shows (Table.afterAll [] calls ran.1) := by
  obtain ⟨bound, represents⟩ := Represents.empty.run (by omega) plain keeps
  have next : ({} : EntityStore).nextKey = UInt64.ofNat 1 := rfl
  exact ⟨(keys_run next (by omega)).1, represents.shows⟩

/-- Rows of two entities in turn, one of them deleted, and what is no row at all. -/
theorem run_shows_table_usersAndOrders :
    let calls : List StoreCall := [
      .insertRow ⟨"User"⟩ (.record [("id", .number (.int 1))]),
      .insertRow ⟨"Order"⟩ (.record [("buyer", .number (.int (-1)))]),
      .insertRow ⟨"User"⟩ (.text "no record"),
      .insertRow ⟨"User"⟩ (.record [("id", .number (.int 2))]),
      .delete ⟨"User"⟩ "00000000000000000001"]
    let ran := ({} : EntityStore).run calls
    (Table.afterAll [] calls ran.1).rowsOf ⟨"User"⟩ = [.record [("id", .number (.int 2))]] ∧
      (ran.1.filterMap StoreAnswer.key?).Nodup ∧ ran.2.Shows (Table.afterAll [] calls ran.1) := by
  intro calls ran
  have keeps : ∀ call ∈ calls, call.Keeps := by
    have kept : ∀ (name : String) (i : Int), (Number.int i).IsWhole64 →
        JsonTree.Kept (.record [(name, .number (.int i))]) := fun name i whole =>
      ⟨⟨List.pairwise_singleton _ _, trivial, trivial⟩, ⟨whole, trivial⟩,
        (by decide : 1 ≤ maxNesting)⟩
    simp only [calls, List.forall_mem_cons, StoreCall.Keeps]
    exact ⟨fun _ => kept "id" 1 (by decide), fun _ => kept "buyer" (-1) (by decide), nofun,
      fun _ => kept "id" 2 (by decide), trivial, nofun⟩
  exact ⟨rfl, run_shows_table calls (by decide) (by decide) keeps⟩

end EntityStore

end Criteria
