import Criteria.Json.Decoder
import Criteria.Proofs.Json.Reader

/-! Values are decoded from their texts: a document without holes is the value it was made of, and
members that stand in order stay where they are. -/

set_option autoImplicit false

namespace Criteria

namespace Dictionary

variable {α : Type} {entries : Dictionary α} {name : String}

theorem insert_last (later : ∀ entry ∈ entries, entry.1 < name) (value : α) :
    entries.insert name value = entries ++ [(name, value)] := by
  induction entries with
  | nil => rfl
  | cons entry rest ih =>
    obtain ⟨first, others⟩ := List.forall_mem_cons.1 later
    have after : ¬ name < entry.1 := String.not_lt.2 (Std.le_of_lt first)
    have distinct : name ≠ entry.1 := fun same => Std.lt_irrefl (same ▸ first)
    rw [insert, if_neg after, if_neg distinct, ih others, List.cons_append]

/-- Entries that stand in order stay where they are. -/
theorem ofList_eq (sorted : entries.Sorted) : ofList entries = entries := by
  suffices ∀ before : Dictionary α, Sorted (before ++ entries) →
      entries.foldl (fun sorted entry => sorted.insert entry.1 entry.2) before = before ++ entries from
    this [] sorted
  clear sorted
  induction entries with
  | nil => exact fun before _ => (List.append_nil before).symm
  | cons entry rest ih =>
    intro before sorted
    have later : ∀ other ∈ before, other.1 < entry.1 := fun other member =>
      (List.pairwise_append.1 sorted).2.2 other member entry List.mem_cons_self
    have next := ih (before ++ [entry]) (by rwa [List.append_assoc, List.singleton_append])
    rw [List.foldl_cons, insert_last later, next, List.append_assoc, List.singleton_append]

end Dictionary

namespace JsonTree

mutual
theorem depth_toDocument (j : Json) : j.toDocument.depth = j.depth := by
  match j with
  | .null | .bool _ | .number _ | .text _ => rfl
  | .list items => rw [toDocument, depth, depth, depth_toDocuments items]
  | .record members => rw [toDocument, depth, depth, depth_toDocumentMembers members]

theorem depth_toDocuments (items : List Json) :
    depthOfItems (toDocuments items) = depthOfItems items := by
  match items with
  | [] => rfl
  | item :: rest =>
    rw [toDocuments, depthOfItems, depthOfItems, depth_toDocument item, depth_toDocuments rest]

theorem depth_toDocumentMembers (members : List (String × Json)) :
    depthOfMembers (toDocumentMembers members) = depthOfMembers members := by
  match members with
  | [] => rfl
  | (name, member) :: rest =>
    rw [toDocumentMembers, depthOfMembers, depthOfMembers, depth_toDocument member,
      depth_toDocumentMembers rest]
end

mutual
theorem toJson?_toDocument {j : Json} (sorted : j.Sorted) : j.toDocument.toJson? = some j := by
  match j with
  | .null | .bool _ | .number _ | .text _ => rfl
  | .list items => rw [toDocument, toJson?, itemsToJson?_toDocuments sorted, Option.map_some]
  | .record members =>
    rw [toDocument, toJson?, membersToJson?_toDocumentMembers sorted.2, Option.map_some,
      Dictionary.ofList_eq sorted.1]

theorem itemsToJson?_toDocuments {items : List Json} (sorted : ItemsSorted items) :
    itemsToJson? (toDocuments items) = some items := by
  match items with
  | [] => rfl
  | item :: rest =>
    rw [toDocuments, itemsToJson?, toJson?_toDocument sorted.1,
      itemsToJson?_toDocuments sorted.2]
    rfl

theorem membersToJson?_toDocumentMembers {members : List (String × Json)}
    (sorted : MembersSorted members) :
    membersToJson? (toDocumentMembers members) = some members := by
  match members with
  | [] => rfl
  | (name, member) :: rest =>
    rw [toDocumentMembers, membersToJson?, toJson?_toDocument sorted.1,
      membersToJson?_toDocumentMembers sorted.2]
    rfl
end

/-- What was written is read again, unless it nests more deeply than the decoder follows. -/
theorem decode?_render {j : Json} (sorted : j.Sorted) (whole : j.Whole) :
    Decoder.decode? Decoder.json (utf8 j.render) = if j.depth ≤ maxNesting then some j else none := by
  rw [Decoder.decode?, Document.read?_render whole, Option.bind_some, Decoder.json, depth_toDocument,
    toJson?_toDocument sorted]

/-- A value that comes back unchanged from its text. Its records are in order and its whole numbers
have 64 bits, as those of all values in memory do; besides, it has no other numbers and does not
nest more deeply than is followed. -/
structure Kept (j : Json) : Prop where
  sorted : j.Sorted
  whole : j.Whole
  shallow : j.depth ≤ maxNesting

end JsonTree

end Criteria
