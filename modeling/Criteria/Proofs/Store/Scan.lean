import Criteria.Store.Backend
import Mathlib.Data.List.Perm.Subperm
import Mathlib.Data.List.Sort

/-!
What a backend holds after a change, and what a scan finds. Keys that begin
alike stand together in the order of all keys, so a scan that stops at the first
other one has found them all. It depends on the entries under such keys alone.
-/

set_option autoImplicit false

namespace Criteria

namespace Bytes

variable {start key later : Bytes}

/-- The order of the keys is the lexicographic one of their bytes. -/
theorem compare_eq_lt_iff {first second : Bytes} :
    compare first second = .lt ↔ first < second := by
  induction first generalizing second with
  | nil => cases second <;> simp [List.compare_nil_cons]
  | cons b first ih =>
    cases second with
    | nil => simp [List.compare_cons_nil]
    | cons c second =>
      rw [List.compare_cons_cons, Ordering.then_eq_lt, List.cons_lt_cons_iff, ih,
        Std.compare_eq_lt, Std.compare_eq_iff_eq]

theorem not_lt_of_prefix (begins : start <+: key) : compare key start ≠ .lt := by
  obtain ⟨rest, rfl⟩ := begins
  induction start with
  | nil => cases rest <;> simp [List.compare_cons_nil]
  | cons b start ih => simpa [List.compare_cons_cons] using ih

/-- What stands between the start and a key that begins with it begins with it, too. -/
theorem prefix_of_between (low : compare key start ≠ .lt) (high : compare key later = .lt)
    (begins : start <+: later) : start <+: key := by
  induction start generalizing key later with
  | nil => exact List.nil_prefix
  | cons b start ih =>
    obtain ⟨rest, rfl⟩ := begins
    cases key with
    | nil => exact absurd (List.compare_nil_cons) low
    | cons c key =>
      rw [List.cons_append, List.compare_cons_cons] at high
      rw [List.compare_cons_cons] at low
      -- the first bytes are the same, since the key is neither before nor after
      have same : c = b := by
        refine Std.compare_eq_iff_eq.1 ?_
        cases order : compare c b <;> simp [order] at low high ⊢
      subst same
      simp only [Std.ReflCmp.compare_self, Ordering.then] at low high
      exact List.cons_prefix_cons.2 ⟨rfl, ih low high (List.prefix_append start rest)⟩

end Bytes

namespace Backend

variable {b other : Backend} {key : Bytes} {text : Bytes} {start : Bytes}

theorem get?_put (b : Backend) (key text asked : Bytes) :
    (b.put key text).get? asked = if key = asked then some text else b.get? asked := by
  simp only [get?, put, Std.TreeMap.getElem?_insert, Std.compare_eq_iff_eq]

theorem delete_fst (b : Backend) (key : Bytes) : (b.delete key).1 = (b.get? key).isSome :=
  Std.TreeMap.contains_eq_isSome_getElem?

theorem get?_delete (b : Backend) (key asked : Bytes) :
    (b.delete key).2.get? asked = if key = asked then none else b.get? asked := by
  simp only [get?, delete, Std.TreeMap.getElem?_erase, Std.compare_eq_iff_eq]

theorem mem_entries : (key, text) ∈ b.entries ↔ b.get? key = some text :=
  Std.TreeMap.mem_toList_iff_getElem?_eq_some

/-- Every key comes before all later ones. -/
def Ascending (entries : List (Bytes × Bytes)) : Prop :=
  entries.Pairwise fun x y => compare x.1 y.1 = .lt

theorem ascending_entries (b : Backend) : Ascending b.entries :=
  Std.TreeMap.ordered_keys_toList

/-- The entries whose keys begin with `start`. -/
def entriesUnder (b : Backend) (start : Bytes) : List (Bytes × Bytes) :=
  b.entries.filter fun entry => start.isPrefixOf entry.1

theorem takeWhile_eq_filter {entries : List (Bytes × Bytes)} (ascending : Ascending entries)
    (low : ∀ entry ∈ entries, compare entry.1 start ≠ .lt) :
    (entries.takeWhile fun entry => start.isPrefixOf entry.1) =
      entries.filter fun entry => start.isPrefixOf entry.1 := by
  induction entries with
  | nil => rfl
  | cons entry rest ih =>
    obtain ⟨before, tail⟩ := List.pairwise_cons.1 ascending
    cases begins : start.isPrefixOf entry.1 with
    | true =>
      have later := ih tail fun other member => low other (List.mem_cons_of_mem entry member)
      simp only [List.takeWhile_cons, List.filter_cons, begins, if_true, later]
    | false =>
      -- a later key with this start would put this one between the start and itself
      have none_later : ∀ other ∈ rest, ¬ start.isPrefixOf other.1 = true := by
        intro other member found
        have between := Bytes.prefix_of_between (low entry List.mem_cons_self)
          (before other member) (List.isPrefixOf_iff_prefix.1 found)
        exact Bool.eq_false_iff.1 begins (List.isPrefixOf_iff_prefix.2 between)
      simp only [List.takeWhile_cons, List.filter_cons, begins, Bool.false_eq_true, if_false,
        List.filter_eq_nil_iff.2 none_later]

theorem takeWhile_dropWhile_eq_filter {entries : List (Bytes × Bytes)}
    (ascending : Ascending entries) (start : Bytes) :
    ((entries.dropWhile fun entry => (compare entry.1 start).isLT).takeWhile fun entry =>
      start.isPrefixOf entry.1) = entries.filter fun entry => start.isPrefixOf entry.1 := by
  induction entries with
  | nil => rfl
  | cons entry rest ih =>
    obtain ⟨before, tail⟩ := List.pairwise_cons.1 ascending
    rw [List.dropWhile_cons]
    split
    · next early =>
      have apart : ¬ start.isPrefixOf entry.1 = true := fun begins =>
        Bytes.not_lt_of_prefix (List.isPrefixOf_iff_prefix.1 begins) (Ordering.isLT_iff_eq_lt.1 early)
      rw [ih tail, List.filter_cons, if_neg apart]
    · next reached =>
      refine takeWhile_eq_filter ascending fun other member early => reached ?_
      rw [Ordering.isLT_iff_eq_lt]
      rcases List.mem_cons.1 member with rfl | member
      · exact early
      · exact Std.TransCmp.lt_trans (before other member) early

theorem scan_eq_take (b : Backend) (start : Bytes) (limit : Nat) :
    b.scan start limit = (b.entriesUnder start).take limit := by
  unfold scan entriesUnder
  rw [takeWhile_dropWhile_eq_filter b.ascending_entries]

theorem mem_entriesUnder :
    (key, text) ∈ b.entriesUnder start ↔ start <+: key ∧ b.get? key = some text := by
  simp only [entriesUnder, List.mem_filter, mem_entries, List.isPrefixOf_iff_prefix, and_comm]

theorem ascending_entriesUnder (b : Backend) (start : Bytes) : Ascending (b.entriesUnder start) :=
  b.ascending_entries.filter _

/-- Entries in ascending order are determined by which they are. -/
theorem entriesUnder_eq {entries : List (Bytes × Bytes)} (ascending : Ascending entries)
    (same : ∀ key text, (key, text) ∈ entries ↔ start <+: key ∧ b.get? key = some text) :
    b.entriesUnder start = entries := by
  have irreflexive : Std.Irrefl fun x y : Bytes × Bytes => compare x.1 y.1 = .lt :=
    ⟨fun x => by simp⟩
  have antisymmetric : Std.Antisymm fun x y : Bytes × Bytes => compare x.1 y.1 = .lt :=
    ⟨fun x y before after => by simp [Std.OrientedCmp.eq_swap (a := x.1), after] at before⟩
  refine List.Pairwise.eq_of_mem_iff (b.ascending_entriesUnder start) ascending fun entry => ?_
  exact mem_entriesUnder.trans (same entry.1 entry.2).symm

theorem mem_entriesUnder_put {entry : Bytes × Bytes}
    (member : entry ∈ (b.put key text).entriesUnder start) :
    entry = (key, text) ∨ entry ∈ b.entriesUnder start := by
  obtain ⟨begins, held⟩ := mem_entriesUnder.1 member
  rw [get?_put] at held
  split at held
  · next here => exact .inl (Prod.ext here.symm (Option.some.inj held).symm)
  · exact .inr (mem_entriesUnder.2 ⟨begins, held⟩)

theorem length_entriesUnder_put_le (b : Backend) (key text start : Bytes) :
    ((b.put key text).entriesUnder start).length ≤ (b.entriesUnder start).length + 1 := by
  have distinct : ((b.put key text).entriesUnder start).Nodup := by
    refine ((b.put key text).ascending_entriesUnder start).imp ?_
    rintro entry _ before rfl
    simp at before
  have old_or_new : (b.put key text).entriesUnder start ⊆ (key, text) :: b.entriesUnder start :=
    fun entry member => List.mem_cons.2 (mem_entriesUnder_put member)
  exact (List.Nodup.subperm distinct old_or_new).length_le

theorem scan_congr (same : ∀ key, start <+: key → b.get? key = other.get? key) (limit : Nat) :
    b.scan start limit = other.scan start limit := by
  rw [scan_eq_take, scan_eq_take]
  congr 1
  refine entriesUnder_eq (other.ascending_entriesUnder start) fun key text => ?_
  rw [mem_entriesUnder]
  exact and_congr_right fun begins => by rw [same key begins]

-- No key between two that begin alike begins otherwise, whatever bytes they begin with, so the scan
-- may stop at the first one that does. Under the empty start are all entries.
/-- A scan finds the first entries, as many as the limit allows, of all those whose keys begin with
`start`, in the lexicographic order of the keys. -/
theorem scan_finds_first (b : Backend) (start : Bytes) (limit : Nat) :
    ∃ found : List (Bytes × Bytes), b.scan start limit = found.take limit ∧
      (found.Pairwise fun earlier later => earlier.1 < later.1) ∧
      ∀ key text, (key, text) ∈ found ↔ start <+: key ∧ b.get? key = some text := by
  refine ⟨b.entriesUnder start, b.scan_eq_take start limit, ?_, fun key text => mem_entriesUnder⟩
  apply (b.ascending_entriesUnder start).imp
  intro earlier later before
  exact Bytes.compare_eq_lt_iff.1 before

end Backend

end Criteria
