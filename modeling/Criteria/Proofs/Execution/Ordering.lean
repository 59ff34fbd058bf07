import Criteria.Proofs.Execution.Projection
import Criteria.Proofs.Execution.Sorting
import Criteria.Proofs.Execution.Stages
import Criteria.Proofs.Json.Order

/-!
ORDER BY. Over keys that have values of one kind each, the result is that
without ORDER BY, put into the lexicographic order of the keys; rows that have
the same keys stay as they were, and the limit is applied last.
-/

set_option autoImplicit false

namespace Criteria

/-! ### The order of bindings -/

/-- What a key sorts a binding by; null where the row has no such field. -/
def Binding.value (binding : Binding) (ref : FieldRef) : Json :=
  match Dictionary.find? binding ref.aliasName with
  | some row => (row.get? ref.field).getD .null
  | none => .null

theorem Binding.field_eq {binding : Binding} {ref : FieldRef} {names : List String}
    (binds : binding.Binds names) (bound : ref.aliasName ∈ names) :
    binding.field ref = .ok (binding.value ref) := by
  have known := (binds ref.aliasName).2 bound
  unfold Binding.field Binding.row Binding.value
  cases found : Dictionary.find? binding ref.aliasName with
  | none => simp [found] at known
  | some row => rfl

/-- Descending, the order is turned round, so that nulls come last. -/
def Direction.Before : Direction → Json → Json → Prop
  | .ascending, a, b => a.Before b
  | .descending, a, b => b.Before a

theorem Direction.Before.trans {direction : Direction} {a b c : Json}
    (first : direction.Before a b) (second : direction.Before b c) : direction.Before a c := by
  cases direction with
  | ascending => exact JsonTree.Before.trans first second
  | descending => exact JsonTree.Before.trans second first

/-- The first key on which the bindings differ has them in this order. -/
def Binding.Precedes : List SortKey → Binding → Binding → Prop
  | [], _, _ => False
  | key :: keys, a, b =>
    key.direction.Before (a.value key.field) (b.value key.field) ∨
    a.value key.field = b.value key.field ∧ Binding.Precedes keys a b

/-- The bindings differ on no key. -/
def Binding.Tied (order : List SortKey) (a b : Binding) : Prop :=
  ∀ key ∈ order, a.value key.field = b.value key.field

/-- Each key has values of one kind on the bindings, apart from nulls. -/
def Homogeneous (order : List SortKey) (bindings : List Binding) : Prop :=
  ∀ key ∈ order, ∃ kind, ∀ binding ∈ bindings, (binding.value key.field).IsOf kind

namespace Executor

variable {order : List SortKey} {bindings : List Binding} {a b : Binding}

/-- The order that a direction takes two values in. -/
def compareIn : Direction → Json → Json → Ordering
  | .ascending, x, y => x.sortOrder y
  | .descending, x, y => (x.sortOrder y).swap

/-- The order of two bindings by their keys. -/
def compareBy (order : List SortKey) (a b : Binding) : Ordering :=
  compareKeys (order.map SortKey.direction) (order.map fun key => a.value key.field)
    (order.map fun key => b.value key.field)

theorem compareBy_cons (key : SortKey) (keys : List SortKey) :
    compareBy (key :: keys) a b =
      (compareIn key.direction (a.value key.field) (b.value key.field)).then
        (compareBy keys a b) := by
  unfold compareIn
  cases direction : key.direction <;> simp [compareBy, compareKeys, direction]

theorem compareIn_of_isOf {kind : JsonTree.Kind} {x y : Json} (direction : Direction)
    (left : x.IsOf kind) (right : y.IsOf kind) :
    (compareIn direction x y = .lt ↔ direction.Before x y) ∧
    (compareIn direction x y = .eq ↔ x = y) := by
  cases direction with
  | ascending => exact JsonTree.sortOrder_of_isOf left right
  | descending =>
    obtain ⟨less, same⟩ := JsonTree.sortOrder_of_isOf right left
    have turned : compareIn .descending x y = y.sortOrder x := (JsonTree.sortOrder_swap x y).symm
    rw [turned]
    exact ⟨less, same.trans eq_comm⟩

theorem orderedOn_compareIn {key : SortKey} {kind : JsonTree.Kind}
    (column : ∀ binding ∈ bindings, (binding.value key.field).IsOf kind) :
    Sorting.OrderedOn
      (fun a b : Binding => compareIn key.direction (a.value key.field) (b.value key.field))
      bindings where
  swap {a b} _ _ := by
    unfold compareIn
    cases key.direction <;> simp only [JsonTree.sortOrder_swap (a.value key.field)]
  trans {a b c} inA inB inC le le' := by
    have characterized : ∀ {a b : Binding}, a ∈ bindings → b ∈ bindings → _ := fun inA inB =>
      compareIn_of_isOf key.direction (column _ inA) (column _ inB)
    rw [Ordering.isLE_iff_eq_lt_or_eq_eq, (characterized inA inB).1, (characterized inA inB).2] at le
    rw [Ordering.isLE_iff_eq_lt_or_eq_eq, (characterized inB inC).1, (characterized inB inC).2] at le'
    rw [Ordering.isLE_iff_eq_lt_or_eq_eq, (characterized inA inC).1, (characterized inA inC).2]
    rcases le with less | same
    · rcases le' with less' | same'
      · exact .inl (Direction.Before.trans less less')
      · exact .inl (same' ▸ less)
    · exact same ▸ le'

theorem orderedOn_compareBy (columns : Homogeneous order bindings) :
    Sorting.OrderedOn (compareBy order) bindings := by
  induction order with
  | nil => exact .eq
  | cons key keys ih =>
    obtain ⟨⟨kind, column⟩, columns⟩ := List.forall_mem_cons.1 columns
    have both := (orderedOn_compareIn column).lex (ih columns)
    simpa only [← compareBy_cons] using both

theorem compareBy_of_homogeneous (columns : Homogeneous order bindings) (inA : a ∈ bindings)
    (inB : b ∈ bindings) : (compareBy order a b = .lt ↔ a.Precedes order b) ∧
      (compareBy order a b = .eq ↔ a.Tied order b) := by
  induction order with
  | nil => exact ⟨⟨nofun, nofun⟩, ⟨fun _ _ => nofun, fun _ => rfl⟩⟩
  | cons key keys ih =>
    obtain ⟨⟨kind, column⟩, columns⟩ := List.forall_mem_cons.1 columns
    obtain ⟨less, same⟩ := compareIn_of_isOf key.direction (column a inA) (column b inB)
    obtain ⟨less', same'⟩ := ih columns
    rw [compareBy_cons, Ordering.then_eq_lt, Ordering.then_eq_eq, less, same, less', same']
    exact ⟨Iff.rfl, by simp [Binding.Tied]⟩

/-! ### Sorting -/

/-- With its aliases bound, ORDER BY is the stable sort by the order of the bindings. -/
theorem sortBindings_eq {names : List String} (binds : ∀ binding ∈ bindings, binding.Binds names)
    (bound : ∀ key ∈ order, key.field.aliasName ∈ names) :
    sortBindings order bindings = .ok (Sorting.sort (compareBy order) bindings) := by
  have keyed : ∀ binding ∈ bindings, (do return (← sortValues order binding, binding)) =
      (.ok (order.map fun key => binding.value key.field, binding) :
        Except ExecutionError (List Json × Binding)) := by
    intro binding member
    have values : sortValues order binding = .ok (order.map fun key => binding.value key.field) :=
      mapM_eq_map fun key inside => Binding.field_eq (binds binding member) (bound key inside)
    rw [values]
    rfl
  let keyedBy (binding : Binding) := (order.map fun key => binding.value key.field, binding)
  let byKeys (a b : List Json × Binding) := compareKeys (order.map SortKey.direction) a.1 b.1
  have sorted : Sorting.sort byKeys (bindings.map keyedBy) =
      (Sorting.sort (compareBy order) bindings).map keyedBy := Sorting.sort_map byKeys keyedBy bindings
  unfold sortBindings
  rw [mapM_eq_map keyed, ok_bind]
  refine congrArg Except.ok ?_
  rw [sorted, List.map_map]
  exact List.map_id _

/-! ### Results -/

/-- A row of a result, with the binding that it shows and its place in the result without
ORDER BY. -/
structure Placed where
  binding : Binding
  row : ResultRow
  place : Nat

/-- The rows of a result at their places. -/
def placed (bindings : List Binding) (rows : List ResultRow) : List Placed :=
  (bindings.zip rows).zipIdx.map fun shown => ⟨shown.1.1, shown.1.2, shown.2⟩

/-- The keys have the first row before the second, or they are tied and it was there first. -/
def Placed.GoesBefore (order : List SortKey) (a b : Placed) : Prop :=
  a.binding.Precedes order b.binding ∨ a.binding.Tied order b.binding ∧ a.place < b.place

variable {store : EntityStore} {config : ExecutorConfig} {q : Query} {rows : List ResultRow}
  {p : Placed}

theorem mem_zip_of_mem (member : p ∈ placed bindings rows) :
    (p.binding, p.row) ∈ bindings.zip rows := by
  obtain ⟨shown, inside, rfl⟩ := List.mem_map.1 member
  exact List.fst_mem_of_mem_zipIdx inside

theorem project_of_mem {select : List String} (projected : bindings.mapM (project select) = .ok rows)
    (member : p ∈ placed bindings rows) : project select p.binding = .ok p.row :=
  (List.forall₂_iff_zip.1 (mapM_eq_ok_iff.1 projected)).2 (mem_zip_of_mem member)

theorem map_row_placed (lengths : bindings.length = rows.length) :
    (placed bindings rows).map Placed.row = rows := by
  calc (placed bindings rows).map Placed.row
    _ = ((bindings.zip rows).zipIdx.map Prod.fst).map Prod.snd := by
      rw [placed, List.map_map, List.map_map]
      rfl
    _ = rows := by rw [List.zipIdx_map_fst, List.map_snd_zip (Nat.le_of_eq lengths.symm)]

/-- The rows of a result can be put in order, with their bindings sorted. -/
theorem exists_sorted (lengths : bindings.length = rows.length)
    (columns : Homogeneous order bindings) : ∃ sorted : List Placed,
      sorted.Perm (placed bindings rows) ∧ sorted.Pairwise (Placed.GoesBefore order) ∧
      sorted.map Placed.binding = Sorting.sort (compareBy order) bindings := by
  have firsts : (bindings.zip rows).map Prod.fst = bindings :=
    List.map_fst_zip (Nat.le_of_eq lengths)
  have ordered : Sorting.OrderedOn (compareBy order) ((bindings.zip rows).map Prod.fst) :=
    firsts.symm ▸ orderedOn_compareBy columns
  obtain ⟨sorted, perm, pairs, same⟩ := ordered.of_map.exists_placed
  refine ⟨sorted.map fun shown => ⟨shown.1.1, shown.1.2, shown.2⟩, perm.map _, ?_, ?_⟩
  · have inside : ∀ shown ∈ sorted, shown.1.1 ∈ bindings := fun shown member =>
      (List.of_mem_zip (List.fst_mem_of_mem_zipIdx (perm.mem_iff.1 member))).1
    refine List.pairwise_map.2 (pairs.imp_of_mem fun {a b} inA inB before => ?_)
    obtain ⟨less, tied⟩ := compareBy_of_homogeneous columns (inside a inA) (inside b inB)
    exact before.imp less.1 (And.imp_left tied.1)
  · have sorts := Sorting.sort_map (compareBy order) Prod.fst (bindings.zip rows)
    rw [firsts, ← same, List.map_map] at sorts
    rw [sorts, List.map_map]
    rfl

/-- Neither the order nor the limit matters to what the filter keeps. -/
theorem filtered_eq (limit : Option Nat) (order : List SortKey) :
    filtered store { config with maxResultRows := limit } { q with order := order } =
      filtered store config q :=
  rfl

theorem of_execute_unordered (plain : execute store { config with maxResultRows := none }
      { q with order := [] } = .ok rows) :
    q.roots ≠ [] ∧ ∃ bindings, filtered store config q = .ok bindings ∧
      bindings.mapM (project q.select) = .ok rows := by
  obtain ⟨rooted, bindings, made, projected⟩ := stages_of_execute plain
  obtain ⟨bindings', early, same⟩ := bind_eq_ok_iff.1 made
  cases same
  exact ⟨rooted, bindings, early, projected⟩

theorem ordered_eq (early : filtered store config q = .ok bindings)
    (bound : ∀ key ∈ q.order, key.field.aliasName ∈ q.boundAliases) :
    ordered store config q = .ok (Sorting.sort (compareBy q.order) bindings) := by
  unfold ordered
  rw [early, ok_bind]
  split
  · next none =>
    rw [List.isEmpty_iff.1 none]
    exact congrArg Except.ok (Sorting.sort_eq_self bindings).symm
  · exact sortBindings_eq (binds_of_filtered early) bound

/-- ORDER BY is a stable sort: the result is that without ORDER BY and limit, in an order in which
each row goes before those that its keys have it before, and in which rows with the same keys stay
as they were, and then cut to the limit. -/
theorem execute_sorts
    (plain : execute store { config with maxResultRows := none } { q with order := [] } = .ok rows)
    (bound : ∀ key ∈ q.order, key.field.aliasName ∈ q.boundAliases)
    (columns : ∀ bindings, filtered store config q = .ok bindings → Homogeneous q.order bindings) :
    ∃ bindings, filtered store config q = .ok bindings ∧
      bindings.mapM (project q.select) = .ok rows ∧
      ∃ sorted : List Placed, sorted.Perm (placed bindings rows) ∧
        sorted.Pairwise (Placed.GoesBefore q.order) ∧
        (sorted.map Placed.row).Perm rows ∧
        ∀ limit, execute store { config with maxResultRows := limit } q =
          .ok (takeAtMost limit (sorted.map Placed.row)) := by
  obtain ⟨rooted, bindings, early, projected⟩ := of_execute_unordered plain
  have lengths : bindings.length = rows.length := (mapM_eq_ok_iff.1 projected).length_eq
  obtain ⟨sorted, perm, pairs, same⟩ := exists_sorted lengths (columns bindings early)
  have shows : (sorted.map Placed.row).Perm rows := map_row_placed lengths ▸ perm.map Placed.row
  refine ⟨bindings, early, projected, sorted, perm, pairs, shows, fun limit => ?_⟩
  have each : ∀ p ∈ takeAtMost limit sorted, project q.select p.binding = .ok p.row :=
    fun p member => project_of_mem projected (perm.mem_iff.1 (takeAtMost_subset limit sorted member))
  rw [execute_eq_stages rooted, ordered_eq (filtered_eq limit q.order ▸ early) bound, ok_bind, ← same,
    takeAtMost_map, takeAtMost_map, List.mapM_map]
  exact mapM_eq_map each

def task : EntityType := ⟨"app.Task"⟩

def taskRow (number : Int) (rank : List (String × Json)) (team : String) : Json :=
  .record ([("n", .number (.int number))] ++ rank ++ [("team", .text team)])

/-- Four tasks, of which the second has no rank. -/
def taskRows : List Json :=
  let second := [("rank", .number (.int 2))]
  [taskRow 1 second "b", taskRow 2 [] "a", taskRow 3 second "b", taskRow 4 second "a"]

def tasks : EntityStore :=
  taskRows.foldl (fun store row => (store.insertRow task row).2) {}

/-- The numbers of the tasks, the highest rank first and within a rank by team. -/
def ranking : Query where
  select := ["t.n"]
  roots := [⟨task, "t"⟩]
  order := [⟨⟨"t", "rank"⟩, .descending⟩, ⟨⟨"t", "team"⟩, .ascending⟩]

def numbered (number : Int) : ResultRow :=
  ⟨[("t.n", .number (.int number))]⟩

set_option maxRecDepth 10000 in
/-- The task without a rank comes last, and the two that agree on both keys stay as they were. -/
theorem execute_sorts_ranking : ∃ sorted : List Placed,
    sorted.Pairwise (Placed.GoesBefore ranking.order) ∧
    sorted.map Placed.row = [numbered 4, numbered 1, numbered 3, numbered 2] ∧
    execute tasks { maxResultRows := some 3 } ranking =
      .ok [numbered 4, numbered 1, numbered 3] := by
  let config : ExecutorConfig := {}
  have plain : execute tasks { config with maxResultRows := none } { ranking with order := [] } =
    .ok [numbered 1, numbered 2, numbered 3, numbered 4] := rfl
  have kept : filtered tasks config ranking = .ok (taskRows.map fun row => [("t", row)]) := rfl
  have columns : ∀ bindings, filtered tasks config ranking = .ok bindings →
      Homogeneous ranking.order bindings := by
    intro bindings early
    cases kept.symm.trans early
    simp only [taskRows, List.map_cons, List.map_nil, Homogeneous, ranking, List.forall_mem_cons]
    have two : JsonTree.IsOf .int64 (.number (.int 2)) := .int64 (by decide) (by decide)
    exact ⟨⟨.int64, two, .null, two, two, nofun⟩, ⟨.text, .text, .text, .text, .text, nofun⟩, nofun⟩
  obtain ⟨-, -, -, sorted, -, pairs, -, result⟩ := execute_sorts plain (by decide) columns
  have all : execute tasks { config with maxResultRows := none } ranking =
    .ok [numbered 4, numbered 1, numbered 3, numbered 2] := rfl
  have same : sorted.map Placed.row = [numbered 4, numbered 1, numbered 3, numbered 2] :=
    Except.ok.inj ((result none).symm.trans all)
  have cut := result (some 3)
  rw [same] at cut
  exact ⟨sorted, pairs, same, cut⟩

end Executor

end Criteria
