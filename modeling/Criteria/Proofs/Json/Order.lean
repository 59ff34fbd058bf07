import Criteria.Json.Order
import Criteria.Proofs.Number.Rounding

/-!
The order of sort keys. It is the same from both sides, but not transitive
everywhere: a value that compares with neither of two others is equal to both
of them, and so is a number that compares with two whole numbers only as they
are rounded, to one and the same. Over null and values of one kind it is the
order of the values.
-/

set_option autoImplicit false

namespace Criteria

/-! ### Numbers -/

namespace Number

variable {m n k : Number} {i j : Int}

theorem eq_int_of_int64? (small : n.int64? = some i) : n = .int i := by
  cases n with
  | int j =>
    simp only [int64?] at small
    split at small
    · rw [Option.some.inj small]
    · cases small
  | float x => cases small

theorem isNaN_of_int64? (small : n.int64? = some i) : n.toBinary64.isNaN = false := by
  rw [eq_int_of_int64? small]
  exact Binary64.isNaN_ofInt i

theorem value_mono (small : m.int64? = some i) (small' : n.int64? = some j) (le : i ≤ j) :
    m.toBinary64.value ≤ n.toBinary64.value := by
  rw [eq_int_of_int64? small, eq_int_of_int64? small']
  exact Binary64.value_ofInt_mono le

/-- How two numbers compare that have a place in the order. -/
theorem compare?_eq (left : m.toBinary64.isNaN = false) (right : n.toBinary64.isNaN = false) :
    m.compare? n = some (match m.int64?, n.int64? with
      | some i, some j => compare i j
      | _, _ => compare m.toBinary64.value n.toBinary64.value) := by
  unfold compare? Binary64.compare?
  simp only [left, right, Bool.or_self, Bool.false_eq_true, if_false]
  cases m.int64? <;> cases n.int64? <;> rfl

/-- Only what is no number at all has no place in the order. -/
theorem compare?_eq_none_iff :
    m.compare? n = none ↔ m.toBinary64.isNaN = true ∨ n.toBinary64.isNaN = true := by
  constructor
  · intro apart
    by_contra placed
    simp only [not_or, Bool.not_eq_true] at placed
    simp [compare?_eq placed.1 placed.2] at apart
  · intro missing
    unfold compare?
    split
    · next small small' =>
      simp [isNaN_of_int64? small, isNaN_of_int64? small'] at missing
    · unfold Binary64.compare?
      exact if_pos (Bool.or_eq_true_iff.2 missing)

theorem compare?_swap (m n : Number) : n.compare? m = (m.compare? n).map Ordering.swap := by
  by_cases missing : m.toBinary64.isNaN = true ∨ n.toBinary64.isNaN = true
  · rw [compare?_eq_none_iff.2 missing, compare?_eq_none_iff.2 missing.symm]
    rfl
  · simp only [not_or, Bool.not_eq_true] at missing
    rw [compare?_eq missing.1 missing.2, compare?_eq missing.2 missing.1]
    cases m.int64? <;> cases n.int64? <;> simp [Int.compare_swap]

/-- Where a number comes between two others that are the other way round, it is no number at all,
or one that is compared with them as they are rounded, to one and the same number. -/
theorem between_of_gt (first : m.compare? n ≠ some .gt) (second : n.compare? k ≠ some .gt)
    (apart : m.compare? k = some .gt) :
    (m.compare? n = none ∧ n.compare? k = none) ∨
    m.int64?.isSome ∧ n.int64? = none ∧ k.int64?.isSome ∧
      m.compare? n = some .eq ∧ n.compare? k = some .eq := by
  have placed : m.toBinary64.isNaN = false ∧ k.toBinary64.isNaN = false := by
    have compared : m.compare? k ≠ none := by simp [apart]
    simpa [compare?_eq_none_iff] using compared
  cases missing : n.toBinary64.isNaN with
  | true => exact .inl ⟨compare?_eq_none_iff.2 (.inr missing), compare?_eq_none_iff.2 (.inl missing)⟩
  | false =>
    rw [compare?_eq placed.1 missing] at first ⊢
    rw [compare?_eq missing placed.2] at second ⊢
    rw [compare?_eq placed.1 placed.2] at apart
    have below : ∀ i ∈ m.int64?, ∀ l ∈ n.int64?, i ≤ l →
        m.toBinary64.value ≤ n.toBinary64.value :=
      fun i small l middle => value_mono small middle
    have above : ∀ l ∈ n.int64?, ∀ j ∈ k.int64?, l ≤ j →
        n.toBinary64.value ≤ k.toBinary64.value :=
      fun l middle j small => value_mono middle small
    have across : ∀ j ∈ k.int64?, ∀ i ∈ m.int64?, j ≤ i →
        k.toBinary64.value ≤ m.toBinary64.value :=
      fun j small i other => value_mono small other
    right
    revert first second apart below above across
    cases m.int64? <;> cases n.int64? <;> cases k.int64? <;>
      simp [Int.compare_eq_gt] <;> omega

end Number

/-! ### Values -/

namespace JsonTree

/-- The second value is taken for equal to both others, which themselves compare: it compares with
neither, or all three are numbers and it compares with the others only as they are rounded. -/
inductive Blurs : Json → Json → Json → Prop
  | unlike {a b c : Json} (present : b.isNull = false) (left : a.compare? b = none)
      (right : b.compare? c = none) : Blurs a b c
  | rounded {m n k : Number} (small : m.int64?.isSome) (large : n.int64? = none)
      (small' : k.int64?.isSome) (left : m.compare? n = some .eq) (right : n.compare? k = some .eq) :
      Blurs (.number m) (.number n) (.number k)

/-- The kinds of values that have an order of their own. -/
inductive Kind where
  | text
  | bool
  | int64

/-- Null, or a value of the kind. -/
inductive IsOf : Kind → Json → Prop
  | null {kind : Kind} : IsOf kind .null
  | text {s : String} : IsOf .text (.text s)
  | bool {b : Bool} : IsOf .bool (.bool b)
  | int64 {i : Int} (low : -2 ^ 63 ≤ i) (high : i < 2 ^ 63) : IsOf .int64 (.number (.int i))

/-- Null comes first, and values of one kind come in their order. -/
inductive Before : Json → Json → Prop
  | null {b : Json} (present : b ≠ .null) : Before .null b
  | text {s t : String} (less : s < t) : Before (.text s) (.text t)
  | bool {s t : Bool} (less : s < t) : Before (.bool s) (.bool t)
  | int {i j : Int} (less : i < j) : Before (.number (.int i)) (.number (.int j))

variable {a b c : Json} {kind : Kind}

theorem compare?_swap (a b : Json) : b.compare? a = (a.compare? b).map Ordering.swap := by
  cases a <;> cases b <;> try rfl
  case bool.bool a b => exact congrArg some Std.OrientedOrd.eq_swap
  case number.number m n => exact Number.compare?_swap m n
  case text.text s t => exact congrArg some Std.OrientedOrd.eq_swap

/-- The order of two values tells the order of the two the other way round. -/
theorem sortOrder_swap (a b : Json) : b.sortOrder a = (a.sortOrder b).swap := by
  unfold sortOrder
  cases a.isNull <;> cases b.isNull <;> try rfl
  rw [compare?_swap a b]
  cases a.compare? b <;> rfl

theorem sortOrder_ne_gt_iff : a.sortOrder b ≠ .gt ↔
    a.isNull = true ∨ b.isNull = false ∧ a.compare? b ≠ some .gt := by
  unfold sortOrder
  cases a.isNull <;> cases b.isNull <;> simp
  cases a.compare? b <;> simp

theorem sortOrder_eq_gt_iff : a.sortOrder b = .gt ↔
    a.isNull = false ∧ (b.isNull = true ∨ a.compare? b = some .gt) := by
  unfold sortOrder
  cases a.isNull <;> cases b.isNull <;> simp
  cases a.compare? b <;> simp

theorem ne_gt_trans {α : Type} [Ord α] [Std.TransOrd α] {x y z : α}
    (first : some (compare x y) ≠ some .gt) (second : some (compare y z) ≠ some .gt) :
    some (compare x z) ≠ some .gt := by
  simp only [ne_eq, Option.some.injEq, Ordering.ne_gt_iff_isLE] at *
  exact Std.TransCmp.isLE_trans first second

theorem blurs_of_gt (present : b.isNull = false) (first : a.compare? b ≠ some .gt)
    (second : b.compare? c ≠ some .gt) (apart : a.compare? c = some .gt) : Blurs a b c := by
  -- the outer values compare, so they are of one kind; a value of another kind compares with neither
  cases a <;> cases c <;> try cases apart
  case text.text s u =>
    cases b <;> try exact .unlike present rfl rfl
    exact absurd apart (ne_gt_trans first second)
  case bool.bool s u =>
    cases b <;> try exact .unlike present rfl rfl
    exact absurd apart (ne_gt_trans first second)
  case number.number m k =>
    cases b <;> try exact .unlike present rfl rfl
    next n =>
      rcases Number.between_of_gt first second apart with ⟨left, right⟩ |
        ⟨small, large, small', left, right⟩
      · exact .unlike present left right
      · exact .rounded small large small' left right

theorem intransitive_iff_blurs :
    (a.sortOrder b ≠ .gt ∧ b.sortOrder c ≠ .gt ∧ a.sortOrder c = .gt) ↔
      a.compare? c = some .gt ∧ Blurs a b c := by
  rw [sortOrder_ne_gt_iff, sortOrder_ne_gt_iff, sortOrder_eq_gt_iff]
  constructor
  · rintro ⟨first, second, present, apart⟩
    obtain ⟨present', first⟩ := first.resolve_left (by simp [present])
    obtain ⟨present'', second⟩ := second.resolve_left (by simp [present'])
    have apart := apart.resolve_left (by simp [present''])
    exact ⟨apart, blurs_of_gt present' first second apart⟩
  · rintro ⟨apart, blurs⟩
    -- values that compare are not null
    have outer : a.isNull = false ∧ c.isNull = false := by
      cases a <;> cases c <;> first | exact ⟨rfl, rfl⟩ | cases apart
    cases blurs with
    | unlike present left right =>
      refine ⟨.inr ⟨present, ?_⟩, .inr ⟨outer.2, ?_⟩, outer.1, .inr apart⟩
      · simp [left]
      · simp [right]
    | rounded small large small' left right =>
      refine ⟨.inr ⟨rfl, ?_⟩, .inr ⟨rfl, ?_⟩, rfl, .inr apart⟩
      · exact fun after => by cases left.symm.trans after
      · exact fun after => by cases right.symm.trans after

/-- The order is the same from both sides. It is transitive at three values unless the first comes
after the last and the one between blurs them. -/
theorem sortOrder_trans_iff (a b c : Json) :
    b.sortOrder a = (a.sortOrder b).swap ∧
    ((a.sortOrder b ≠ .gt → b.sortOrder c ≠ .gt → a.sortOrder c ≠ .gt) ↔
      ¬ (a.compare? c = some .gt ∧ Blurs a b c)) := by
  refine ⟨sortOrder_swap a b, ?_⟩
  rw [← intransitive_iff_blurs]
  simp only [ne_eq, not_and]

/-- Neither a text between two whole numbers nor one beyond the signed 64-bit range keeps them in
order. -/
theorem sortOrder_intransitive :
    (sortOrder (.number (.int 2)) (.text "a") = .eq ∧
      sortOrder (.text "a") (.number (.int 1)) = .eq ∧
      sortOrder (.number (.int 2)) (.number (.int 1)) = .gt) ∧
    (sortOrder (.number (.int 9223372036854775807)) (.number (.int 9223372036854775808)) = .eq ∧
      sortOrder (.number (.int 9223372036854775808)) (.number (.int 9223372036854775806)) = .eq ∧
      sortOrder (.number (.int 9223372036854775807)) (.number (.int 9223372036854775806)) = .gt) := by
  decide +kernel

/-! ### Values of one kind -/

theorem Before.trans (first : a.Before b) (second : b.Before c) : a.Before c := by
  cases first with
  | null present =>
    refine .null fun none => ?_
    cases none ▸ second
    exact present rfl
  | text less =>
    cases second with
    | text less' => exact .text (String.lt_trans less less')
  | bool less =>
    cases second with
    | bool less' => exact .bool (Bool.lt_trans less less')
  | int less =>
    cases second with
    | int less' => exact .int (Int.lt_trans less less')

theorem compare?_int {i j : Int} (left : IsOf .int64 (.number (.int i)))
    (right : IsOf .int64 (.number (.int j))) :
    (JsonTree.number (.int i) : Json).compare? (.number (.int j)) = some (compare i j) := by
  have small : ∀ {i : Int}, IsOf .int64 (.number (.int i)) → (Number.int i).int64? = some i := by
    rintro i ⟨⟩
    next low high => exact if_pos ⟨low, high⟩
  simp [compare?, Number.compare?, small left, small right]

/-- Within a kind, sorting goes by the order of the values and takes only equal ones for equal. -/
theorem sortOrder_of_isOf (left : IsOf kind a) (right : IsOf kind b) :
    (a.sortOrder b = .lt ↔ a.Before b) ∧ (a.sortOrder b = .eq ↔ a = b) := by
  cases left with
  | null =>
    cases right with
    | null =>
      refine ⟨⟨nofun, fun before => ?_⟩, ⟨fun _ => rfl, fun _ => rfl⟩⟩
      cases before with
      | null present => exact absurd rfl present
    | text | bool | int64 => exact ⟨⟨fun _ => .null nofun, fun _ => rfl⟩, ⟨nofun, nofun⟩⟩
  | @text s =>
    cases right with
    | null => exact ⟨⟨nofun, nofun⟩, ⟨nofun, nofun⟩⟩
    | @text t =>
      have compared : sortOrder (.text s) (.text t) = compare s t := rfl
      rw [compared, JsonTree.text.injEq, Std.compare_eq_iff_eq]
      refine ⟨Iff.trans compareOfLessAndEq_eq_lt ⟨.text, ?_⟩, Iff.rfl⟩
      rintro ⟨⟩
      assumption
  | @bool s =>
    cases right with
    | null => exact ⟨⟨nofun, nofun⟩, ⟨nofun, nofun⟩⟩
    | @bool t =>
      have compared : sortOrder (.bool s) (.bool t) = compare s t := rfl
      have less : compare s t = .lt ↔ s < t := by cases s <;> cases t <;> decide
      rw [compared, JsonTree.bool.injEq, Std.compare_eq_iff_eq]
      refine ⟨less.trans ⟨.bool, ?_⟩, Iff.rfl⟩
      rintro ⟨⟩
      assumption
  | @int64 i low high =>
    cases right with
    | null => exact ⟨⟨nofun, nofun⟩, ⟨nofun, nofun⟩⟩
    | @int64 j low' high' =>
      have compared : sortOrder (.number (.int i)) (.number (.int j)) = compare i j := by
        simp [sortOrder, isNull, compare?_int (.int64 low high) (.int64 low' high')]
      rw [compared, JsonTree.number.injEq, Number.int.injEq, Std.compare_eq_iff_eq]
      refine ⟨Int.compare_eq_lt.trans ⟨.int, ?_⟩, Iff.rfl⟩
      rintro ⟨⟩
      assumption

end JsonTree

end Criteria
