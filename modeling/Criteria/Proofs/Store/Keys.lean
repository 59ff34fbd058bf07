import Criteria.Proofs.Text.Digits
import Criteria.Store.EntityStore

/-!
The keys of rows. A separator ends the name of the entity, so two entities whose
names hold none never share a key. The numbers are written with equally many
digits, so the order of the keys is that of the numbers.
-/

set_option autoImplicit false

namespace Criteria

/-- The name of `inner` goes on after the name of `outer` and a separator. -/
def EntityType.Nests (outer inner : EntityType) : Prop :=
  (outer.name ++ Namespace.separator).toList <+: inner.name.toList

instance (outer inner : EntityType) : Decidable (outer.Nests inner) :=
  inferInstanceAs (Decidable (_ <+: _))

/-- The name holds no separator. -/
def EntityType.IsPlain (entity : EntityType) : Prop :=
  '#' ∉ entity.name.toList

instance (entity : EntityType) : Decidable entity.IsPlain :=
  inferInstanceAs (Decidable (_ ∉ _))

/-! ### Numbers as keys -/

namespace EntityStore

variable {m n : UInt64} {entity other : EntityType} {key : String}

theorem isDigit_rowKey (n : UInt64) : ∀ c ∈ (rowKey n).toList, c.isDigit = true := by
  intro c member
  simp only [rowKey, String.toList_ofList, List.mem_append, List.mem_replicate] at member
  rcases member with ⟨-, rfl⟩ | member
  · rfl
  · exact Nat.isDigit_of_mem_toDigits (by decide) (by decide) member

theorem length_rowKey (n : UInt64) : (rowKey n).toList.length = 20 := by
  have short : (Nat.toDigits 10 n.toNat).length ≤ 20 :=
    (Nat.length_toDigits_le_iff (by decide) (by decide)).2 (by have := n.toNat_lt; omega)
  simp only [rowKey, String.toList_ofList, List.length_append, List.length_replicate]
  omega

theorem ofDigitChars_rowKey (n : UInt64) : Nat.ofDigitChars 10 (rowKey n).toList 0 = n.toNat := by
  simp [rowKey, Nat.ofDigitChars_append, Nat.ofDigitChars_replicate_zero]

theorem number_eq_of_rowKey (same : rowKey m = rowKey n) : m = n := by
  have equal := congrArg (Nat.ofDigitChars 10 ·.toList 0) same
  simp only [ofDigitChars_rowKey] at equal
  exact UInt64.toNat_inj.1 equal

/-- The bytes under which the row with this key stands, however many they are. -/
def keyBytes (entity : EntityType) (key : String) : Bytes :=
  utf8 (entity.name ++ Namespace.separator ++ key)

theorem keyBytes_eq (entity : EntityType) (key : String) :
    keyBytes entity key = (table entity).keyStart ++ utf8 key :=
  utf8_append _ _

theorem fullKey_eq (entity : EntityType) (key : String) : (table entity).fullKey key =
    if Namespace.maxKeySize < (keyBytes entity key).length then
      .error (.keyTooLarge (keyBytes entity key).length Namespace.maxKeySize)
    else .ok (keyBytes entity key) :=
  rfl

/-- The key of a row is found again in that of its entry. -/
theorem decodeEntry_keyBytes {α : Type} [Storable α] (entity : EntityType) (key : String)
    (text : Bytes) : (table entity).decodeEntry (keyBytes entity key, text) =
      (Namespace.decode key text).map fun value : α => (key, value) := by
  have name : ofUtf8? ((keyBytes entity key).drop (table entity).keyStart.length) = some key := by
    rw [keyBytes_eq, List.drop_left, ofUtf8?_utf8]
  simp only [Namespace.decodeEntry, name]

/-- The number in a key does not depend on where the name of the entity ends. -/
theorem number_eq_of_keyBytes (same : keyBytes entity (rowKey m) = keyBytes other (rowKey n)) :
    m = n := by
  have chars := congrArg String.toList (utf8_injective same)
  simp only [String.toList_append] at chars
  have digits := (List.append_inj' chars ((length_rowKey m).trans (length_rowKey n).symm)).2
  exact number_eq_of_rowKey (String.toList_injective digits)

theorem compare_keyBytes_of_lt (less : m < n) :
    compare (keyBytes entity (rowKey m)) (keyBytes entity (rowKey n)) = .lt := by
  have digits : compare (utf8 (rowKey m)) (utf8 (rowKey n)) = .lt := by
    rw [utf8_eq, utf8_eq]
    refine Digits.compare_utf8_of_lt (isDigit_rowKey m) (isDigit_rowKey n)
      ((length_rowKey m).trans (length_rowKey n).symm) ?_
    rwa [ofDigitChars_rowKey, ofDigitChars_rowKey, ← UInt64.lt_iff_toNat_lt]
  rw [keyBytes_eq, keyBytes_eq]
  generalize (table entity).keyStart = start
  induction start with
  | nil => exact digits
  | cons b start ih => simpa [List.compare_cons_cons] using ih

/-! ### Names of entities -/

/-- What a text has beyond another one begins with the separator that follows the other. -/
theorem separator_goes_on {short long more rest tail : List Char} (apart : short ≠ long)
    (longer : long = short ++ more) (same : '#' :: rest = more ++ tail) :
    short ++ ['#'] <+: long := by
  cases more with
  | nil => exact absurd (longer.trans (List.append_nil short)).symm apart
  | cons c more =>
    cases (List.cons.inj same).1
    exact ⟨more, by simp [longer]⟩

/-- A key of another entity begins like those of this one only if one of the names goes on after
the other and a separator. -/
theorem nests_of_start (different : entity ≠ other)
    (begins : (table entity).keyStart <+: keyBytes other key) :
    entity.Nests other ∨ other.Nests entity := by
  have distinct : entity.name.toList ≠ other.name.toList := fun same =>
    different (congrArg EntityType.mk (String.toList_injective same))
  have separator : Namespace.separator.toList = ['#'] := rfl
  obtain ⟨rest, split⟩ := toList_prefix_of_utf8 begins
  simp only [table, String.toList_append, separator, List.append_assoc, List.singleton_append]
    at split
  simp only [EntityType.Nests, String.toList_append, separator]
  obtain ⟨more, longer, same⟩ | ⟨more, longer, same⟩ := List.append_eq_append_iff.1 split
  · exact .inl (separator_goes_on distinct longer same)
  · exact .inr (separator_goes_on distinct.symm longer same)

theorem not_nests_of_isPlain (plain : other.IsPlain) : ¬ entity.Nests other := by
  intro nested
  refine plain (nested.subset ?_)
  simp [Namespace.separator]

/-- A key that begins like those of an entity is a key of that one, if the names are plain. -/
theorem eq_of_start (plain : entity.IsPlain) (otherPlain : other.IsPlain)
    (begins : (table entity).keyStart <+: keyBytes other key) : entity = other := by
  refine Classical.byContradiction fun different => ?_
  rcases nests_of_start different begins with nested | nested
  · exact not_nests_of_isPlain otherPlain nested
  · exact not_nests_of_isPlain plain nested

theorem begins_keyBytes (entity : EntityType) (key : String) :
    (table entity).keyStart <+: keyBytes entity key :=
  keyBytes_eq entity key ▸ List.prefix_append _ _

/-- What stands after the start is a key of the entity, whoever put it there. -/
theorem exists_keyBytes_of_start (begins : (table entity).keyStart <+: keyBytes other key) :
    ∃ name, keyBytes other key = keyBytes entity name := by
  obtain ⟨rest, split⟩ := toList_prefix_of_utf8 begins
  have joined : (entity.name ++ Namespace.separator ++ String.ofList rest).toList =
      (entity.name ++ Namespace.separator).toList ++ rest := by
    rw [String.toList_append, String.toList_ofList]
  exact ⟨String.ofList rest, congrArg utf8 (String.toList_injective (split.symm.trans joined.symm))⟩

/-- Plain names do not share keys. -/
theorem eq_of_keyBytes {first second : String} (plain : entity.IsPlain) (otherPlain : other.IsPlain)
    (same : keyBytes entity first = keyBytes other second) : entity = other ∧ first = second := by
  obtain rfl := eq_of_start plain otherPlain (same ▸ begins_keyBytes entity first)
  rw [keyBytes_eq, keyBytes_eq] at same
  exact ⟨rfl, utf8_injective (List.append_cancel_left same)⟩

end EntityStore

end Criteria
