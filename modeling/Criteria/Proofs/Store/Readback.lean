import Criteria.Proofs.Store.Rows
import Criteria.Proofs.Store.Table

/-!
What can be read back of a store. Rows of any depth are written, but the decoder
follows only so many nested lists and records. A row that nests more deeply is
accepted all the same, and no scan gets past it from then on. Every other row is
read as it was inserted, whatever the names of the entities, and no call with
such rows takes the scans of an entity away.
-/

set_option autoImplicit false

namespace Criteria

theorem Namespace.decode_render {row : Json} (sorted : row.Sorted) (whole : row.Whole) (key : String) :
    Namespace.decode key (utf8 row.render) = if row.depth ≤ maxNesting then .ok row
      else .error (.serialization ("failed to decode '" ++ key ++ "': not a value of the type")) := by
  have decoded : Decoder.decode? Storable.decoder (utf8 row.render) =
      if row.depth ≤ maxNesting then some row else none := JsonTree.decode?_render sorted whole
  by_cases shallow : row.depth ≤ maxNesting
  · simp only [decode, decoded, if_pos shallow]
  · simp only [decode, decoded, if_neg shallow]

namespace EntityStore

variable {store after : EntityStore} {entity other : EntityType} {row : Json} {rows : List Json}
  {key : String} {limit : Nat} {call : StoreCall} {answer : StoreAnswer}

/-- No scan of the entity fails. -/
def Readable (store : EntityStore) (entity : EntityType) : Prop :=
  ∀ limit, ∃ rows, store.rows entity limit = .ok rows

/-- A scan that comes to all entries has a row for each of them. -/
theorem image_of_rows (loaded : store.rows entity limit = .ok rows)
    (enough : store.count entity ≤ limit) :
    ∀ entry ∈ store.backend.entriesUnder (table entity).keyStart,
      ∃ key, ∃ row ∈ rows, (table entity).decodeEntry entry = .ok (key, row) := by
  intro entry member
  obtain ⟨entries, scanned, values⟩ := bind_eq_ok_iff.1 loaded
  rw [Namespace.scan, Backend.scan_eq_take, List.take_of_length_le enough] at scanned
  obtain ⟨value, inside, decoded⟩ := image_of_mapM scanned entry member
  exact ⟨value.1, value.2, Except.ok.inj values ▸ List.mem_map_of_mem inside, decoded⟩

theorem readable_iff : store.Readable entity ↔
    ∀ entry ∈ store.backend.entriesUnder (table entity).keyStart,
      ∃ value : String × Json, (table entity).decodeEntry entry = .ok value := by
  constructor
  · intro readable entry member
    obtain ⟨rows, loaded⟩ := readable (store.count entity)
    obtain ⟨key, row, -, decoded⟩ := image_of_rows loaded le_rfl entry member
    exact ⟨(key, row), decoded⟩
  · intro each limit
    cases scanned : ((table entity).scan store.backend limit : Except _ (List (String × Json))) with
    | ok entries => exact ⟨entries.map Prod.snd, bind_eq_ok_iff.2 ⟨entries, scanned, rfl⟩⟩
    | error e =>
      rw [Namespace.scan, Backend.scan_eq_take] at scanned
      obtain ⟨entry, member, failed⟩ := exists_of_mapM_eq_error scanned
      obtain ⟨value, decoded⟩ := each entry (List.mem_of_mem_take member)
      cases failed.symm.trans decoded

theorem count_fresh (entity : EntityType) : ({} : EntityStore).count entity = 0 :=
  rfl

theorem readable_fresh (entity : EntityType) : ({} : EntityStore).Readable entity := by
  rw [readable_iff]
  intro entry member
  cases (Backend.mem_entriesUnder.1 member).2

/-- The entry of a row is decoded to that row, and if it nests too deeply to nothing. -/
theorem decodeEntry_render_iff (sorted : row.Sorted) (whole : row.Whole) {value : String × Json} :
    (table entity).decodeEntry (keyBytes entity key, utf8 row.render) = .ok value ↔
      row.depth ≤ maxNesting ∧ value = (key, row) := by
  rw [decodeEntry_keyBytes, Namespace.decode_render sorted whole]
  split
  · next shallow => simp [Except.map, shallow, eq_comm]
  · next deep => simp [Except.map, deep]

/-! ### After an insertion -/

theorem mem_entriesUnder_withRow (store : EntityStore) (entity : EntityType) (row : Json) :
    (keyBytes entity (rowKey store.nextKey), utf8 row.render) ∈
      (store.withRow entity row).backend.entriesUnder (table entity).keyStart :=
  Backend.mem_entriesUnder.2
    ⟨begins_keyBytes entity _, (Backend.get?_put _ _ _ _).trans (if_pos rfl)⟩

theorem count_withRow_le (store : EntityStore) (entity : EntityType) (row : Json) :
    (store.withRow entity row).count entity ≤ store.count entity + 1 :=
  Backend.length_entriesUnder_put_le _ _ _ _

theorem row_withRow_iff (sorted : row.Sorted) (whole : row.Whole)
    (accepts : store.Accepts (.insertRow entity row)) :
    (store.withRow entity row).row entity (rowKey store.nextKey) = .ok row ↔
      row.depth ≤ maxNesting := by
  have held : (store.withRow entity row).backend.get? (keyBytes entity (rowKey store.nextKey)) =
      some (utf8 row.render) := (Backend.get?_put _ _ _ _).trans (if_pos rfl)
  rw [row_eq, if_neg (Nat.not_lt.2 accepts.2), held]
  simp only [Namespace.decode_render sorted whole]
  split <;> simp [*]

/-- The entry of another entity may be among those of this one, and is decoded there, too. -/
theorem readable_withRow (kept : row.Kept) (readable : store.Readable entity) :
    (store.withRow other row).Readable entity := by
  rw [readable_iff] at readable ⊢
  intro entry member
  rcases Backend.mem_entriesUnder_put member with rfl | before
  · obtain ⟨name, same⟩ := exists_keyBytes_of_start (Backend.mem_entriesUnder.1 member).1
    rw [same]
    exact ⟨_, (decodeEntry_render_iff kept.sorted kept.whole).2 ⟨kept.shallow, rfl⟩⟩
  · exact readable entry before

theorem readable_withRow_iff (sorted : row.Sorted) (whole : row.Whole)
    (readable : store.Readable entity) :
    (store.withRow entity row).Readable entity ↔ row.depth ≤ maxNesting := by
  constructor
  · intro later
    obtain ⟨value, decoded⟩ := readable_iff.1 later _ (mem_entriesUnder_withRow store entity row)
    exact ((decodeEntry_render_iff sorted whole).1 decoded).1
  · exact fun shallow => readable_withRow ⟨sorted, whole, shallow⟩ readable

/-- A scan that comes to the inserted row and does not fail there returns it. -/
theorem mem_rows_withRow (sorted : row.Sorted) (whole : row.Whole)
    (enough : store.count entity < limit)
    (loaded : (store.withRow entity row).rows entity limit = .ok rows) :
    row ∈ rows ∧ row.depth ≤ maxNesting := by
  have all := Nat.le_trans (store.count_withRow_le entity row) enough
  obtain ⟨key, other, member, decoded⟩ :=
    image_of_rows loaded all _ (mem_entriesUnder_withRow store entity row)
  obtain ⟨shallow, same⟩ := (decodeEntry_render_iff sorted whole).1 decoded
  obtain ⟨-, rfl⟩ := Prod.mk.inj same
  exact ⟨member, shallow⟩

/-! ### After any calls -/

theorem readable_without (readable : store.Readable entity) :
    (store.without other key).Readable entity := by
  rw [readable_iff] at readable ⊢
  intro entry member
  obtain ⟨begins, held⟩ := Backend.mem_entriesUnder.1 member
  rw [without, Backend.get?_delete] at held
  split at held
  · cases held
  · exact readable entry (Backend.mem_entriesUnder.2 ⟨begins, held⟩)

theorem Step.readable (step : store.Step call answer after) (keeps : call.Keeps)
    (readable : store.Readable entity) : after.Readable entity := by
  cases step with
  | inserted accepts => exact readable_withRow (keeps accepts.1) readable
  | deleted => exact readable_without readable
  | failed => exact readable

/-- Scans go on to succeed as long as no row is inserted that cannot be read. -/
theorem readable_run {calls : List StoreCall} (keeps : ∀ call ∈ calls, call.Keeps)
    (readable : store.Readable entity) : (store.run calls).2.Readable entity := by
  induction calls generalizing store with
  | nil => exact readable
  | cons call rest ih =>
    obtain ⟨first, others⟩ := List.forall_mem_cons.1 keeps
    exact ih others ((store.step_answer call).readable first readable)

/-- A row that was accepted is read back from its key, and the scans that come to it succeed and
return it, exactly if it does not nest more deeply than the decoder follows. Then all later scans
succeed, after any calls with such rows; otherwise the scans of the entity fail. -/
theorem insertRow_readable_iff (inserted : store.insertRow entity row = (.ok key, after))
    (sorted : row.Sorted) (whole : row.Whole) (readable : store.Readable entity) :
    (after.row entity key = .ok row ↔ row.depth ≤ maxNesting) ∧
    (∀ limit, store.count entity < limit →
      ((∃ rows, after.rows entity limit = .ok rows) ↔ row.depth ≤ maxNesting) ∧
      ∀ rows, after.rows entity limit = .ok rows → row ∈ rows) ∧
    (after.Readable entity ↔ row.depth ≤ maxNesting) ∧
    (row.depth ≤ maxNesting → ∀ calls : List StoreCall, (∀ call ∈ calls, call.Keeps) →
      (after.run calls).2.Readable entity) := by
  rcases store.insertRow_cases entity row with ⟨e, n, failed, -⟩ | ⟨done, accepts⟩
  · cases inserted.symm.trans failed
  · cases inserted.symm.trans done
    have later := readable_withRow_iff sorted whole readable
    refine ⟨row_withRow_iff sorted whole accepts, fun limit enough => ⟨⟨?_, ?_⟩, ?_⟩, later, ?_⟩
    · rintro ⟨rows, loaded⟩
      exact (mem_rows_withRow sorted whole enough loaded).2
    · exact fun shallow => later.2 shallow limit
    · exact fun rows loaded => (mem_rows_withRow sorted whole enough loaded).1
    · exact fun shallow calls keeps => readable_run keeps (later.2 shallow)

/-- A row with a list of texts is read back, also of an entity whose name holds a separator. -/
theorem insertRow_readable_iff_tags :
    let entity : EntityType := ⟨"shop#Product"⟩
    let row : Json := .record [("id", .number (.int 1)), ("tags", .list [.text "new", .text "\"#\""])]
    let after := (({} : EntityStore).insertRow entity row).2
    after.row entity "00000000000000000001" = .ok row ∧
      (∃ rows, after.rows entity 1 = .ok rows ∧ row ∈ rows) ∧ after.Readable entity := by
  intro entity row after
  have inserted : ({} : EntityStore).insertRow entity row = (.ok "00000000000000000001", after) := rfl
  have sorted : row.Sorted :=
    ⟨List.pairwise_pair.2 (by decide), trivial, ⟨trivial, trivial, trivial⟩, trivial⟩
  have whole : row.Whole :=
    ⟨(by decide : (Number.int 1).IsWhole64), ⟨trivial, trivial, trivial⟩, trivial⟩
  have shallow : row.depth ≤ maxNesting := by decide
  obtain ⟨read, scans, later, -⟩ :=
    insertRow_readable_iff inserted sorted whole (readable_fresh entity)
  obtain ⟨succeeds, returns⟩ := scans 1 (by simp [count_fresh])
  obtain ⟨rows, loaded⟩ := succeeds.2 shallow
  exact ⟨read.2 shallow, ⟨rows, loaded, returns rows loaded⟩, later.2 shallow⟩

/-- A list in a list, and so on. -/
def nested : Nat → Json
  | 0 => .list []
  | n + 1 => .list [nested n]

theorem depth_nested (n : Nat) : (nested n).depth = n + 1 := by
  induction n with
  | zero => rfl
  | succ n ih => simp [nested, JsonTree.depth, JsonTree.depthOfItems, ih]

theorem sorted_nested (n : Nat) : (nested n).Sorted := by
  induction n with
  | zero => exact trivial
  | succ n ih => exact ⟨ih, trivial⟩

theorem whole_nested (n : Nat) : (nested n).Whole := by
  induction n with
  | zero => exact trivial
  | succ n ih => exact ⟨ih, trivial⟩

theorem chars_nested (n : Nat) :
    (nested n).chars = List.replicate (n + 1) '[' ++ List.replicate (n + 1) ']' := by
  induction n with
  | zero => rfl
  | succ n ih =>
    calc (nested (n + 1)).chars = '[' :: (nested n).chars ++ [']'] := rfl
      _ = ('[' :: List.replicate (n + 1) '[') ++ (List.replicate (n + 1) ']' ++ [']']) := by
        rw [ih, List.cons_append, List.cons_append, List.append_assoc]
      _ = List.replicate (n + 2) '[' ++ List.replicate (n + 2) ']' := by
        rw [← List.replicate_succ, ← List.replicate_succ']

theorem render_nested (n : Nat) : JsonTree.render (.record [("v", nested n)]) = "\x7b\"v\":" ++
    String.ofList (List.replicate (n + 1) '[' ++ List.replicate (n + 1) ']') ++ "\x7d" := by
  have chars : JsonTree.chars (.record [("v", nested n)]) =
      "\x7b\"v\":".toList ++ (nested n).chars ++ "\x7d".toList := rfl
  rw [JsonTree.render, chars, String.ofList_append, String.ofList_append, String.ofList_toList,
    String.ofList_toList, chars_nested]

/-- One list more than the decoder follows: the row is accepted, and nothing is read any more. The
store is as if the text of the row had been put in the place of a small one. -/
theorem insertRow_unreadable :
    let entity : EntityType := ⟨"T"⟩
    let row : Json := .record [("v", nested 126)]
    let inserted := ({} : EntityStore).insertRow entity row
    let small := (({} : EntityStore).insertRow entity (.record [("v", nested 1)])).2
    let text :=
      "\x7b\"v\":" ++ String.ofList (List.replicate 127 '[' ++ List.replicate 127 ']') ++ "\x7d"
    inserted.1 = .ok "00000000000000000001" ∧
      inserted.2 = { small with
        backend := small.backend.put (utf8 "T#00000000000000000001") (utf8 text) } ∧
      inserted.2.row entity "00000000000000000001" ≠ .ok row ∧
      ∀ rows, inserted.2.rows entity 1 ≠ .ok rows := by
  intro entity row inserted small text
  have written : row.render = text := render_nested 126
  have accepts : ({} : EntityStore).Accepts (.insertRow entity row) := ⟨rfl, by decide⟩
  have sorted : row.Sorted := ⟨List.pairwise_singleton _ _, sorted_nested 126, trivial⟩
  have whole : row.Whole := ⟨whole_nested 126, trivial⟩
  have deep : ¬ row.depth ≤ maxNesting := by
    simp [row, JsonTree.depth, JsonTree.depthOfMembers, depth_nested, maxNesting]
  refine ⟨rfl, ?_, ?_, fun rows loaded => ?_⟩
  · rw [← written]
    rfl
  · exact fun read => deep ((row_withRow_iff sorted whole accepts).1 read)
  · exact deep (mem_rows_withRow sorted whole (by simp [count_fresh]) loaded).2

end EntityStore

end Criteria
