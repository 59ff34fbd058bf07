import Criteria.Parameters
import Criteria.Proofs.Text.Fresh
import Criteria.Proofs.Text.Identifier

/-! What binding and assigning do to the values under names. A name that is bound is new, so
whatever the earlier names stand for, they stand for afterwards. -/

set_option autoImplicit false

namespace Criteria

namespace Parameters

variable {ps : Parameters}

/-- The number of a numbered name is what follows the last underscore, whatever underscores and
digits come before. -/
theorem number_eq_of_numberedName {hint other : String} {m n : Nat}
    (same : numberedName hint m = numberedName other n) : m = n := by
  have tail : ∀ (word : List Char) (n : Nat),
      (word ++ '_' :: Nat.toDigits 10 n).reverse.takeWhile (· != '_') =
        (Nat.toDigits 10 n).reverse := by
    intro word n
    have digits : ∀ c ∈ (Nat.toDigits 10 n).reverse, (c != '_') = true := by
      intro c member
      refine bne_iff_ne.2 fun underscore => ?_
      exact Nat.underscore_not_in_toDigits (underscore ▸ List.mem_reverse.1 member)
    simp [List.takeWhile_append_of_pos digits]
  have chars := congrArg String.toList same
  simp only [numberedName, String.toList_append, Nat.toString_eq_ofList_toDigits,
    String.toList_ofList, List.append_assoc] at chars
  have digits := congrArg (fun cs => cs.reverse.takeWhile (· != '_')) chars
  have equal := congrArg (fun cs => Nat.ofDigitChars 10 cs.reverse 0)
    (((tail _ m).symm.trans digits).trans (tail _ n))
  simpa using equal

theorem numberedName_injective (hint : String) : Function.Injective (numberedName hint) :=
  fun _ _ same => number_eq_of_numberedName same

theorem stem_of_isIdentifier {hint : String} (valid : isIdentifier hint = true) :
    stem hint = hint := by
  obtain ⟨words, first, head, -⟩ := isIdentifier_iff.1 valid
  have nonempty : hint.isEmpty = false := by
    cases empty : hint.isEmpty with
    | false => rfl
    | true => simp [String.isEmpty_iff.1 empty] at head
  have same : hint.toList.map (fun c => if isWordChar c then c else '_') = hint.toList :=
    (List.map_congr_left fun c member => if_pos (words c member)).trans (List.map_id _)
  simp [stem, nonempty, same]

/-- The names of parameters can stand in a condition unquoted, whatever the hints were. -/
theorem isWord_numberedName (hint : String) (n : Nat) : IsWord (numberedName hint n) := by
  have word : IsWord (stem hint) := by
    unfold stem
    split
    · decide
    · intro c member
      rw [String.toList_ofList] at member
      obtain ⟨original, -, rfl⟩ := List.mem_map.1 member
      split
      · assumption
      · rfl
  have underscore : IsWord "_" := by decide
  exact (word.append underscore).append (isWord_toString n)

theorem freshName_notMem (ps : Parameters) (hint : String) : ps.freshName hint ∉ ps.names :=
  firstFree_notMem (numberedName_injective hint) ps.size

theorem get?_eq_none_iff {name : String} : ps.get? name = none ↔ name ∉ ps.names := by
  simp only [get?, names, List.lookup_eq_none_iff, List.mem_map, bne_iff_ne]
  constructor
  · rintro absent ⟨entry, member, rfl⟩
    exact absent entry member rfl
  · intro absent entry member same
    exact absent ⟨entry, member, same.symm⟩

theorem get?_bind_self (hint : String) (value : Literal) :
    (ps.bind hint value).2.get? (ps.freshName hint) = some value := by
  have absent : ps.entries.lookup (ps.freshName hint) = none :=
    get?_eq_none_iff.2 (ps.freshName_notMem hint)
  simp [bind, get?, List.lookup_append, absent]

theorem prefix_bind (ps : Parameters) (hint : String) (value : Literal) :
    ps.entries <+: (ps.bind hint value).2.entries :=
  List.prefix_append _ _

theorem names_bind (hint : String) (value : Literal) :
    (ps.bind hint value).2.names = ps.names ++ [ps.freshName hint] := by
  simp [bind, names]

theorem get?_bind (hint : String) (value : Literal) (name : String) :
    (ps.bind hint value).2.get? name =
      if name = ps.freshName hint then some value else ps.get? name := by
  by_cases same : name = ps.freshName hint
  · rw [if_pos same, same]
    exact get?_bind_self hint value
  · simp [bind, get?, List.lookup_append, List.lookup_cons, beq_false_of_ne same, same]

example : ((⟨[("order_id_1", .null)]⟩ : Parameters).bind "order id" (.int 7)).1 = "order_id_2" := by
  decide +kernel

theorem lookup_assignIn {name other : String} (different : other ≠ name) (value : Literal)
    (entries : List (String × Literal)) :
    (assignIn name value entries).lookup other = entries.lookup other := by
  induction entries with
  | nil => simp [assignIn, beq_false_of_ne different, List.lookup_cons]
  | cons entry rest ih =>
    obtain ⟨first, kept⟩ := entry
    simp only [assignIn]
    split
    · next same =>
      have elsewhere : (other == first) = false := beq_false_of_ne (same ▸ different)
      simp only [List.lookup_cons, elsewhere]
    · simp only [List.lookup_cons, ih]

theorem lookup_assignIn_self (name : String) (value : Literal) (entries : List (String × Literal)) :
    (assignIn name value entries).lookup name = some value := by
  induction entries with
  | nil => simp [assignIn]
  | cons entry rest ih =>
    obtain ⟨first, kept⟩ := entry
    simp only [assignIn]
    split
    · next same => simp [same]
    · next different => simp [List.lookup_cons, beq_false_of_ne (Ne.symm different), ih]

theorem get?_assign (name : String) (value : Literal) (other : String) :
    (ps.assign name value).get? other = if other = name then some value else ps.get? other := by
  by_cases same : other = name
  · rw [if_pos same, same]
    exact lookup_assignIn_self name value ps.entries
  · rw [if_neg same]
    exact lookup_assignIn same value ps.entries

theorem map_fst_assignIn (name : String) (value : Literal) (entries : List (String × Literal)) :
    (assignIn name value entries).map Prod.fst =
      if name ∈ entries.map Prod.fst then entries.map Prod.fst
      else entries.map Prod.fst ++ [name] := by
  induction entries with
  | nil => rfl
  | cons entry rest ih =>
    obtain ⟨first, kept⟩ := entry
    simp only [assignIn, List.map_cons, List.mem_cons]
    by_cases same : first = name
    · simp [same]
    · simp only [same, if_false, List.map_cons, ih, Ne.symm same, false_or]
      split <;> rfl

theorem names_assign (name : String) (value : Literal) :
    (ps.assign name value).names =
      if name ∈ ps.names then ps.names else ps.names ++ [name] :=
  map_fst_assignIn name value ps.entries

/-- The values that earlier parameters have under these names are values of later ones. -/
def KeptOn (names : List String) (earlier later : Parameters) : Prop :=
  ∀ name ∈ names, ∀ value, earlier.get? name = some value → later.get? name = some value

namespace KeptOn

variable {names : List String} {first second third : Parameters}

theorem refl (names : List String) (ps : Parameters) : KeptOn names ps ps :=
  fun _ _ _ found => found

theorem trans (early : KeptOn names first second) (late : KeptOn names second third) :
    KeptOn names first third :=
  fun name member value found => late name member value (early name member value found)

theorem left {more : List String} (kept : KeptOn (names ++ more) first second) :
    KeptOn names first second :=
  fun name member => kept name (List.mem_append_left _ member)

theorem right {more : List String} (kept : KeptOn (names ++ more) first second) :
    KeptOn more first second :=
  fun name member => kept name (List.mem_append_right _ member)

theorem of_entries (extended : first.entries <+: second.entries) : KeptOn names first second :=
  fun _ _ _ found => List.IsPrefix.lookup_eq_some extended found

theorem assign {name : String} (unused : name ∉ names) (value : Literal) :
    KeptOn names ps (ps.assign name value) := by
  intro other member kept found
  have different : other ≠ name := fun same => unused (same ▸ member)
  exact (lookup_assignIn different value ps.entries).trans found

end KeptOn

end Parameters

end Criteria
