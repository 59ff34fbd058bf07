import Criteria.Proofs.Json.Decoder

/-!
Laws of decoders. A decoder recovers what a value was made of when it gives that,
if the value nests no more deeply than it may be opened, and nothing if it nests
more deeply. It covers an encoding when no text that it accepts nests less deeply
than the encoding of what it gives. Both laws pass from the parts of a structure
to the whole.
-/

set_option autoImplicit false

namespace Criteria

section Options

variable {α β : Type}

theorem guard_bind {p : Prop} [Decidable p] (a : α) (next : α → Option β) :
    (if p then some a else none).bind next = if p then next a else none := by
  split <;> rfl

/-- A traversal all of whose steps are guarded is guarded by all of them. -/
theorem mapM_guard {step : α → Option β} {value : α → β} {p : α → Prop} [DecidablePred p]
    {xs : List α} (each : ∀ x ∈ xs, step x = if p x then some (value x) else none) :
    xs.mapM step = if ∀ x ∈ xs, p x then some (xs.map value) else none := by
  induction xs with
  | nil => simp
  | cons x rest ih =>
    obtain ⟨head, tail⟩ := List.forall_mem_cons.1 each
    rw [List.mapM_cons, head, ih tail, Option.bind_eq_bind, guard_bind, Option.bind_eq_bind,
      guard_bind, ← ite_and]
    simp only [List.forall_mem_cons, Option.pure_def, List.map_cons]

theorem exists_of_mapM {step : α → Option β} {xs : List α} {ys : List β}
    (ran : xs.mapM step = some ys) : ∀ y ∈ ys, ∃ x ∈ xs, step x = some y := by
  induction xs generalizing ys with
  | nil =>
    cases ran
    exact nofun
  | cons x rest ih =>
    rw [List.mapM_cons] at ran
    obtain ⟨y, head, ran⟩ := Option.bind_eq_some_iff.1 ran
    obtain ⟨tail, later, same⟩ := Option.bind_eq_some_iff.1 ran
    cases same
    refine List.forall_mem_cons.2 ⟨⟨x, List.mem_cons_self, head⟩, fun other member => ?_⟩
    obtain ⟨source, inside, made⟩ := ih later other member
    exact ⟨source, List.mem_cons_of_mem _ inside, made⟩

end Options

namespace JsonTree

variable {Text Number : Type} {limit : Nat}

theorem depthOfItems_le_iff {items : List (JsonTree Text Number)} :
    depthOfItems items ≤ limit ↔ ∀ item ∈ items, item.depth ≤ limit := by
  induction items with
  | nil => simp [depthOfItems]
  | cons item rest ih => rw [depthOfItems, Nat.max_le, ih, List.forall_mem_cons]

theorem depthOfMembers_le_iff {members : List (Text × JsonTree Text Number)} :
    depthOfMembers members ≤ limit ↔ ∀ member ∈ members, member.2.depth ≤ limit := by
  induction members with
  | nil => simp [depthOfMembers]
  | cons member rest ih => rw [depthOfMembers, Nat.max_le, ih, List.forall_mem_cons]

theorem depth_list_le_succ_iff {items : List (JsonTree Text Number)} :
    (list items).depth ≤ limit + 1 ↔ ∀ item ∈ items, item.depth ≤ limit := by
  rw [depth, Nat.add_le_add_iff_right, depthOfItems_le_iff]

theorem depth_record_le_succ_iff {members : List (Text × JsonTree Text Number)} :
    (record members).depth ≤ limit + 1 ↔ ∀ member ∈ members, member.2.depth ≤ limit := by
  rw [depth, Nat.add_le_add_iff_right, depthOfMembers_le_iff]

/-- A record with one member in place of another one. -/
theorem depth_variant_le {Text' Number' : Type} {depth : Nat} {j : JsonTree Text Number}
    {payload : JsonTree Text' Number'} (kind : Text) (key : Text')
    (bound : j.depth ≤ min depth payload.depth) :
    (record [(kind, j)]).depth ≤ min (depth + 1) (record [(key, payload)]).depth := by
  simp only [JsonTree.depth, depthOfMembers]
  omega

theorem toDocuments_eq (items : List Json) : toDocuments items = items.map toDocument := by
  induction items with
  | nil => rfl
  | cons item rest ih => rw [toDocuments, ih, List.map_cons]

theorem toDocumentMembers_eq (members : List (String × Json)) :
    toDocumentMembers members = members.map fun member => (some member.1, member.2.toDocument) := by
  induction members with
  | nil => rfl
  | cons member rest ih => rw [toDocumentMembers, ih, List.map_cons]

theorem itemsWhole_iff {items : List Json} : ItemsWhole items ↔ ∀ item ∈ items, item.Whole := by
  induction items with
  | nil => simp [ItemsWhole]
  | cons item rest ih => simp [ItemsWhole, ih]

end JsonTree

namespace Decoder

variable {α β : Type} {d : Decoder α} {e : Decoder β} {encode : α → Json} {encodeOther : β → Json}

/-! ### Recovering -/

/-- The value stands for `a`: it is decoded to `a` exactly if it may be opened so deeply. -/
structure Recovers (d : Decoder α) (j : Json) (a : α) : Prop where
  whole : j.Whole
  decode_eq : ∀ depth, d depth j.toDocument = if j.depth ≤ depth then some a else none

theorem Recovers.decode? {j : Json} {a : α} (recovers : d.Recovers j a) :
    d.decode? (utf8 j.render) = if j.depth ≤ maxNesting then some a else none := by
  rw [Decoder.decode?, Document.read?_render recovers.whole, Option.bind_some, recovers.decode_eq]

theorem Recovers.required {j : Json} {a : α} (recovers : d.Recovers j a) (depth : Nat) :
    required d depth (some j.toDocument) = if j.depth ≤ depth then some a else none :=
  recovers.decode_eq depth

theorem recovers_text (s : String) : text.Recovers (.text s) s :=
  ⟨trivial, fun _ => rfl⟩

theorem recovers_constant {named? : String → Option α} {name : String} {a : α}
    (named : named? name = some a) : (constant named?).Recovers (.text name) a :=
  ⟨trivial, fun _ => named⟩

theorem recovers_list (as : List α) (each : ∀ a ∈ as, d.Recovers (encode a) a) :
    (list d).Recovers (.list (as.map encode)) as where
  whole := by
    refine JsonTree.itemsWhole_iff.2 fun item inside => ?_
    obtain ⟨a, member, rfl⟩ := List.mem_map.1 inside
    exact (each a member).whole
  decode_eq := by
    intro depth
    cases depth with
    | zero => rw [if_neg (by simp [JsonTree.depth])]; rfl
    | succ depth =>
      have items := mapM_guard fun a member => (each a member).decode_eq depth
      rw [JsonTree.toDocument, JsonTree.toDocuments_eq, List.map_map, list, List.mapM_map]
      simp only [JsonTree.depth_list_le_succ_iff, List.forall_mem_map]
      exact items.trans (by rw [List.map_id'])

theorem recovers_pair {j k : Json} {a : α} {b : β} (first : d.Recovers j a)
    (second : e.Recovers k b) : (pair d e).Recovers (.list [j, k]) (a, b) where
  whole := ⟨first.whole, second.whole, trivial⟩
  decode_eq := by
    intro depth
    cases depth with
    | zero => rw [if_neg (by simp [JsonTree.depth])]; rfl
    | succ depth =>
      simp only [JsonTree.toDocument, JsonTree.toDocuments, pair, first.decode_eq, second.decode_eq,
        Option.bind_eq_bind, guard_bind, ← ite_and, JsonTree.depth_list_le_succ_iff]
      simp

theorem recovers_null : (orNull d).Recovers .null none :=
  ⟨trivial, fun _ => rfl⟩

theorem Recovers.orNull {j : Json} {a : α} (recovers : d.Recovers j a) (something : j ≠ .null) :
    (orNull d).Recovers j (some a) where
  whole := recovers.whole
  decode_eq := by
    intro depth
    have decoded := congrArg (Option.map some) (recovers.decode_eq depth)
    cases j with
    | null => exact absurd rfl something
    | _ => exact decoded.trans (by split <;> rfl)

/-! ### Members of records -/

/-- Where the names differ, only one member has the name of a given one. -/
theorem filter_name_eq {members : List (String × Json)} {m : String × Json}
    (distinct : (members.map Prod.fst).Nodup) (inside : m ∈ members) :
    members.filter (fun other => other.1 == m.1) = [m] := by
  induction members with
  | nil => cases inside
  | cons first rest ih =>
    obtain ⟨fresh, later⟩ := List.nodup_cons.1 distinct
    rcases List.mem_cons.1 inside with rfl | inside
    · have others : rest.filter (fun other => other.1 == m.1) = [] :=
        List.filter_eq_nil_iff.2 fun other member same =>
          fresh (beq_iff_eq.1 same ▸ List.mem_map_of_mem member)
      rw [List.filter_cons, if_pos (beq_self_eq_true _), others]
    · have other : ¬ (first.1 == m.1) = true := fun same =>
        fresh (beq_iff_eq.1 same ▸ List.mem_map_of_mem inside)
      rw [List.filter_cons, if_neg other, ih later inside]

theorem member_eq {members : List (String × Json)} {m : String × Json}
    (distinct : (members.map Prod.fst).Nodup) (inside : m ∈ members) :
    member (JsonTree.toDocumentMembers members) m.1 = some (some m.2.toDocument) := by
  have found : (JsonTree.toDocumentMembers members).filter (fun other => other.1 == some m.1) =
      [(some m.1, m.2.toDocument)] := by
    rw [JsonTree.toDocumentMembers_eq, List.filter_map]
    exact congrArg (List.map fun m => (some m.1, m.2.toDocument)) (filter_name_eq distinct inside)
  rw [member, found]

theorem fields_eq {members : List (String × Json)} {names : List String}
    (named : names = members.map Prod.fst) (distinct : names.Nodup) (needed : Nat) :
    fields names needed (JsonTree.record members).toDocument =
      some (members.map fun m => some m.2.toDocument) := by
  subst named
  have all : (JsonTree.toDocumentMembers members).all (fun m => m.1.isSome) = true := by
    simp [JsonTree.toDocumentMembers_eq]
  have each : ∀ m ∈ members, member (JsonTree.toDocumentMembers members) m.1 =
      if True then some (some m.2.toDocument) else none :=
    fun m inside => (member_eq distinct inside).trans (if_pos trivial).symm
  rw [JsonTree.toDocument, fields, if_pos all, List.mapM_map]
  exact (mapM_guard each).trans (by simp)

/-- A structure is recovered if its fields are recovered from the values of all its members. -/
theorem recovers_of_structure {a : α} {members : List (String × Json)} {names : List String}
    {needed : Nat} {next : Nat → List (Option Document) → Option α}
    (closed : ∀ document, d 0 document = none)
    (opened : ∀ depth document, d (depth + 1) document =
      (fields names needed document >>= next depth))
    (named : names = members.map Prod.fst) (distinct : names.Nodup)
    (whole : JsonTree.MembersWhole members)
    (each : ∀ depth, next depth (members.map fun m => some m.2.toDocument) =
      if ∀ m ∈ members, m.2.depth ≤ depth then some a else none) :
    d.Recovers (.record members) a where
  whole := whole
  decode_eq := by
    intro depth
    cases depth with
    | zero => exact closed _
    | succ depth =>
      rw [opened, fields_eq named distinct, Option.bind_eq_bind, Option.bind_some, each]
      simp only [JsonTree.depth_record_le_succ_iff]

/-! ### Covering -/

/-- Whatever is decoded to `a` nests at least as deeply as this value, and has been opened as
deeply. -/
def Covers (d : Decoder α) (j : Json) (a : α) : Prop :=
  ∀ ⦃depth : Nat⦄ ⦃document : Document⦄, d depth document = some a →
    j.depth ≤ min depth document.depth

theorem covers_of_flat {j : Json} {a : α} (flat : j.depth = 0) : d.Covers j a :=
  fun _ _ _ => flat ▸ Nat.zero_le _

theorem covers_list {as : List α} (each : ∀ a ∈ as, d.Covers (encode a) a) :
    (list d).Covers (.list (as.map encode)) as := by
  intro depth document accepted
  match depth, document with
  | depth + 1, .list items =>
    rw [JsonTree.depth.eq_def (.list items), Nat.add_min_add_right, JsonTree.depth_list_le_succ_iff]
    refine List.forall_mem_map.2 fun a member => ?_
    obtain ⟨item, inside, decoded⟩ := exists_of_mapM accepted a member
    have bound := each a member decoded
    have inner := JsonTree.depthOfItems_le_iff.1 (Nat.le_refl _) item inside
    omega

theorem covers_pair {j k : Json} {a : α} {b : β} (first : d.Covers j a) (second : e.Covers k b) :
    (pair d e).Covers (.list [j, k]) (a, b) := by
  intro depth document accepted
  match depth, document with
  | depth + 1, .list [item, other] =>
    obtain ⟨a, head, accepted⟩ := Option.bind_eq_some_iff.1 accepted
    obtain ⟨b, last, same⟩ := Option.bind_eq_some_iff.1 accepted
    cases same
    have bound := first head
    have boundOther := second last
    simp only [JsonTree.depth, JsonTree.depthOfItems]
    omega

theorem Covers.orNull {j : Json} {a : α} (covers : d.Covers j a) :
    (orNull d).Covers j (some a) := by
  intro depth document accepted
  refine covers ?_
  cases document with
  | null => cases accepted
  | _ =>
    obtain ⟨b, decoded, same⟩ := Option.map_eq_some_iff.1 accepted
    exact decoded.trans same

/-! ### Variants with one member -/

theorem Recovers.variant {j : Json} {a : α} {kind : String} {make : α → β}
    (recovers : d.Recovers j a) (closed : e 0 (JsonTree.record [(kind, j)]).toDocument = none)
    (opened : ∀ depth, e (depth + 1) (JsonTree.record [(kind, j)]).toDocument =
      (d depth j.toDocument).map make) : e.Recovers (.record [(kind, j)]) (make a) where
  whole := ⟨recovers.whole, trivial⟩
  decode_eq := by
    intro depth
    cases depth with
    | zero => exact closed
    | succ depth =>
      rw [opened, recovers.decode_eq]
      simp only [JsonTree.depth_record_le_succ_iff, List.forall_mem_singleton]
      split <;> rfl

/-! ### Members of structures -/

variable {depth limit : Nat} {field : Option Document} {a : α}

theorem mem_of_member {members : List (Option String × Document)} {name : String}
    {inner : Document} (chosen : member members name = some (some inner)) :
    (some name, inner) ∈ members := by
  unfold member at chosen
  split at chosen
  · cases chosen
  · next key value alone =>
    cases chosen
    have occurs : (key, inner) ∈ members.filter fun m => m.1 == some name := by simp [alone]
    obtain ⟨inside, same⟩ := List.mem_filter.1 occurs
    exact beq_iff_eq.1 same ▸ inside
  · cases chosen

theorem inside_of_fields {names : List String} {needed : Nat} {document : Document}
    {found : List (Option Document)} (structured : fields names needed document = some found) :
    ∃ limit, document.depth = limit + 1 ∧
      ∀ field ∈ found, ∀ inner ∈ field, inner.depth ≤ limit := by
  match document with
  | .record members =>
    refine ⟨_, rfl, fun field occurs inner present => ?_⟩
    simp only [fields, Option.ite_none_right_eq_some] at structured
    obtain ⟨name, -, chosen⟩ := exists_of_mapM structured.2 field occurs
    have inside := mem_of_member (chosen.trans (congrArg some present))
    exact JsonTree.depthOfMembers_le_iff.1 (Nat.le_refl _) _ inside
  | .list items =>
    refine ⟨_, rfl, fun field occurs inner present => ?_⟩
    simp only [fields, Option.ite_none_right_eq_some, Option.some.injEq] at structured
    obtain ⟨-, rfl⟩ := structured
    cases present
    have inside : inner ∈ items := by simpa using occurs
    exact JsonTree.depthOfItems_le_iff.1 (Nat.le_refl _) _ inside

/-- The members of a structure that is decoded nest less deeply than the structure. -/
theorem members_of_structure {names : List String} {needed : Nat} {document : Document}
    {next : List (Option Document) → Option α}
    (accepted : (fields names needed document >>= next) = some a) :
    ∃ found limit, document.depth = limit + 1 ∧
      (∀ field ∈ found, ∀ inner ∈ field, inner.depth ≤ limit) ∧ next found = some a := by
  obtain ⟨found, structured, accepted⟩ := Option.bind_eq_some_iff.1 accepted
  obtain ⟨limit, depth_eq, inside⟩ := inside_of_fields structured
  exact ⟨found, limit, depth_eq, inside, accepted⟩

theorem covers_of_structure {members : List (String × Json)} {names : List String} {needed : Nat}
    {next : Nat → List (Option Document) → Option α} (closed : ∀ document, d 0 document = none)
    (opened : ∀ depth document, d (depth + 1) document =
      (fields names needed document >>= next depth))
    (each : ∀ ⦃depth limit found⦄, (∀ field ∈ found, ∀ inner ∈ field, inner.depth ≤ limit) →
      next depth found = some a → ∀ m ∈ members, m.2.depth ≤ min depth limit) :
    d.Covers (.record members) a := by
  intro depth document accepted
  cases depth with
  | zero => cases (closed document).symm.trans accepted
  | succ depth =>
    obtain ⟨found, limit, depth_eq, inside, accepted⟩ :=
      members_of_structure ((opened depth document).symm.trans accepted)
    rw [depth_eq, Nat.add_min_add_right, JsonTree.depth_record_le_succ_iff]
    exact each inside accepted

theorem Covers.required {j : Json} (covers : d.Covers j a)
    (within : ∀ inner ∈ field, inner.depth ≤ limit) (found : required d depth field = some a) :
    j.depth ≤ min depth limit := by
  obtain ⟨inner, present, accepted⟩ := Option.bind_eq_some_iff.1 found
  have bound := covers accepted
  have inside := within inner present
  omega

/-- A field may be missing whose value then nests nothing. -/
theorem Covers.withDefault {j : Json} {fallback : α} (covers : d.Covers j a)
    (flat : a = fallback → j.depth = 0) (within : ∀ inner ∈ field, inner.depth ≤ limit)
    (found : withDefault fallback d depth field = some a) : j.depth ≤ min depth limit := by
  cases field with
  | none =>
    rw [flat (Option.some.inj found).symm]
    exact Nat.zero_le _
  | some inner => exact covers.required within found

end Decoder

end Criteria
