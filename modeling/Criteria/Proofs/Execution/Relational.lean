import Criteria.Proofs.Execution.Projection
import Criteria.Proofs.Store.Rows

/-!
The relational meaning of a query. Its tuples are those of a product, with the
rows of the FROM clause and, for each JOIN, its rows and in a LEFT JOIN also
null; one law says which of them the query admits. Execution interleaves the
joins and conditions, clause by clause, and gives the same tuples in the same
order.
-/

set_option autoImplicit false

namespace Criteria

/-- Whether a condition, if there is one, holds on a tuple. -/
def Tuple.satisfies (ps : Parameters) (condition : Option Condition) (t : Tuple) : Bool :=
  condition.all fun c => c.reading (t.value ps)

namespace Join

def accepts (ps : Parameters) (join : Join) (before : Tuple) (row : Json) : Bool :=
  Tuple.satisfies ps join.condition (before ++ [(join.aliasName, some row)])

/-- Whether a row may follow a tuple: it must satisfy the join condition, and its absence requires
that no row does. -/
def admits (ps : Parameters) (join : Join) (rows : List Json) (before : Tuple) : Option Json → Bool
  | some row => join.accepts ps before row
  | none => !rows.any (join.accepts ps before)

/-- Whether the component of a tuple at a position may follow those before it. -/
def admitsAt (ps : Parameters) (join : Join) (rows : List Json) (i : Nat) (t : Tuple) : Bool :=
  t[i]?.any fun component => join.admits ps rows (t.take i) component.2

/-- What a join can have for its alias. -/
def alternatives (join : Join) (rows : List Json) : List (Option Json) :=
  rows.map some ++ if join.kind = .left then [none] else []

def clause (tables : EntityType → List Json) (join : Join) : Clause :=
  (join.aliasName, join.alternatives (tables join.entity))

theorem admitsAt_append (ps : Parameters) (join : Join) (rows : List Json) (before more : Tuple)
    (name : String) (row : Option Json) :
    join.admitsAt ps rows before.length (before ++ (name, row) :: more) =
      join.admits ps rows before row := by
  simp [admitsAt]

/-- Null is admitted only when there is nothing else. -/
theorem filter_admits (ps : Parameters) (join : Join) (rows : List Json) (before : Tuple) :
    (join.alternatives rows).filter (join.admits ps rows before) =
      match rows.filter (join.accepts ps before) with
      | [] => if join.kind = .left then [none] else []
      | kept => kept.map some := by
  have found : (rows.map some).filter (join.admits ps rows before) =
      (rows.filter (join.accepts ps before)).map some := List.filter_map
  unfold alternatives
  rw [List.filter_append, found]
  cases kept : rows.filter (join.accepts ps before) with
  | nil =>
    have unmatched : rows.any (join.accepts ps before) = false :=
      List.any_eq_false.2 (List.filter_eq_nil_iff.1 kept)
    split <;> simp [admits, unmatched]
  | cons row rest =>
    have inside : row ∈ rows.filter (join.accepts ps before) := kept ▸ List.mem_cons_self
    have matched : rows.any (join.accepts ps before) = true :=
      List.any_eq_true.2 ⟨row, List.mem_filter.1 inside⟩
    split <;> simp [admits, matched]

end Join

def Root.clause (tables : EntityType → List Json) (root : Root) : Clause :=
  (root.aliasName, (tables root.entity).map some)

/-- Whether each component of a tuple from a position on may follow those before it. -/
def Tuple.fits (tables : EntityType → List Json) (ps : Parameters) (joins : List Join)
    (start : Nat) (t : Tuple) : Bool :=
  (joins.zipIdx start).all fun (join, i) => join.admitsAt ps (tables join.entity) i t

/-- A query with a FROM clause whose conditions and select items are about what is bound there: in
a join condition the aliases of the FROM clause and of the joins up to its own. -/
structure Query.Closed (q : Query) (columns : List Column) : Prop where
  rooted : q.roots ≠ []
  distinct : q.boundAliases.Nodup
  joins : ∀ i join, q.joins[i]? = some join → ∀ c ∈ join.condition,
    Condition.IsAbout (q.roots.map Root.aliasName ++ (q.joins.take (i + 1)).map Join.aliasName)
      q.parameters c
  filter : ∀ c ∈ q.filter, c.IsAbout q.boundAliases q.parameters
  select : q.select = columns.map Column.text
  columns : ∀ column ∈ columns, column.IsAbout q.boundAliases

namespace Query

variable (q : Query) (tables : EntityType → List Json)

def entities : List EntityType :=
  q.roots.map Root.entity ++ q.joins.map Join.entity

def clauses : List Clause :=
  q.roots.map (Root.clause tables) ++ q.joins.map (Join.clause tables)

/-- The filter holds on the tuple, and each join admits its component. -/
def admits (t : Tuple) : Bool :=
  t.satisfies q.parameters q.filter && t.fits tables q.parameters q.joins q.roots.length

end Query

/-! ### Joins -/

namespace Executor

variable {ps : Parameters} {join : Join} {t : Tuple} {ts : List Tuple} {rows : List Json}
  {condition : Option Condition}

theorem keepWhere_eq (distinct : ∀ t ∈ ts, t.names.Nodup)
    (about : ∀ t ∈ ts, ∀ c ∈ condition, c.IsAbout t.names ps) :
    keepWhere ps condition (ts.map Tuple.binding) =
      .ok ((ts.filter (Tuple.satisfies ps condition)).map Tuple.binding) := by
  cases condition with
  | none =>
    have all : ts.filter (Tuple.satisfies ps none) = ts := List.filter_eq_self.2 fun _ _ => rfl
    rw [all]
    rfl
  | some c =>
    exact filterM_map fun t member => t.evaluate_eq (distinct t member) (about t member c rfl)

theorem joinRows_eq (distinct : (t.names ++ [join.aliasName]).Nodup)
    (about : ∀ c ∈ join.condition, c.IsAbout (t.names ++ [join.aliasName]) ps) :
    joinRows ps join rows t.binding = .ok (((join.alternatives rows).filter
      (join.admits ps rows t)).map fun row => Tuple.binding (t ++ [(join.aliasName, row)])) := by
  let joined : List Tuple := rows.map fun row => t ++ [(join.aliasName, some row)]
  have named : ∀ other ∈ joined, other.names = t.names ++ [join.aliasName] := by
    intro other member
    obtain ⟨row, -, rfl⟩ := List.mem_map.1 member
    exact List.map_append
  have bindings : (rows.map fun row => Dictionary.insert join.aliasName row t.binding) =
      joined.map Tuple.binding := by
    simp [joined, Tuple.binding_append, Function.comp_def]
  have kept := keepWhere_eq (fun other member => named other member ▸ distinct)
    (fun other member => named other member ▸ about)
  have accepted : joined.filter (Tuple.satisfies ps join.condition) =
      (rows.filter (join.accepts ps t)).map fun row => t ++ [(join.aliasName, some row)] :=
    List.filter_map
  unfold joinRows
  rw [bindings, kept, ok_bind, accepted, join.filter_admits]
  have absent : Dictionary.insert join.aliasName .null t.binding =
      Tuple.binding (t ++ [(join.aliasName, none)]) := (Tuple.binding_append t _ none).symm
  cases rows.filter (join.accepts ps t) with
  | nil => cases join.kind <;> simp [absent, pure, Except.pure]
  | cons row rest => simp [pure, Except.pure, Function.comp_def]

variable {store : EntityStore} {config : ExecutorConfig} {tables : EntityType → List Json}
  {names : List String}

/-- The tuples with all that a join admits after them. -/
def joinTuples (tables : EntityType → List Json) (ps : Parameters) (ts : List Tuple)
    (join : Join) : List Tuple :=
  ts.flatMap fun t => ((join.alternatives (tables join.entity)).filter
    (join.admits ps (tables join.entity) t)).map fun row => t ++ [(join.aliasName, row)]

theorem applyJoin_eq (loaded : load store config join.entity = .ok (tables join.entity))
    (distinct : ∀ t ∈ ts, (t.names ++ [join.aliasName]).Nodup)
    (about : ∀ t ∈ ts, ∀ c ∈ join.condition, c.IsAbout (t.names ++ [join.aliasName]) ps) :
    applyJoin store config ps (ts.map Tuple.binding) join =
      .ok ((joinTuples tables ps ts join).map Tuple.binding) := by
  have each : ∀ t ∈ ts, (joinRows ps join (tables join.entity) ∘ Tuple.binding) t =
      .ok ((joinTuples tables ps [t] join).map Tuple.binding) := by
    intro t member
    rw [Function.comp_apply, joinRows_eq (distinct t member) (about t member)]
    simp [joinTuples, Function.comp_def]
  have joined : (ts.map fun t => (joinTuples tables ps [t] join).map Tuple.binding).flatten =
      (joinTuples tables ps ts join).map Tuple.binding := by
    simp [joinTuples, List.flatMap_def, Function.comp_def]
  unfold applyJoin
  rw [loaded, ok_bind, List.mapM_map, mapM_eq_map each, ok_bind, joined]
  rfl

theorem names_of_mem_joinTuples (named : ∀ t ∈ ts, t.names = names) :
    ∀ t ∈ joinTuples tables ps ts join, t.names = names ++ [join.aliasName] := by
  intro t' member
  obtain ⟨t, inside, chosen⟩ := List.mem_flatMap.1 member
  obtain ⟨row, -, rfl⟩ := List.mem_map.1 chosen
  rw [← named t inside]
  exact List.map_append

/-- The joined tuples are those of the product that the join admits. -/
theorem filter_extend_join (clauses : List Clause) {n : Nat} (lengths : ∀ t ∈ ts, t.length = n) :
    (Tuple.extend ts (join.clause tables :: clauses)).filter
      (join.admitsAt ps (tables join.entity) n) =
    Tuple.extend (joinTuples tables ps ts join) clauses := by
  have position : ∀ t ∈ ts, ∀ row more, join.admitsAt ps (tables join.entity) n
      (t ++ (join.aliasName, row) :: more) = join.admits ps (tables join.entity) t row := by
    intro t member row more
    rw [← lengths t member, Join.admitsAt_append]
  -- what the join admits is decided before the later clauses extend the tuples
  rw [Tuple.extend_cons, Tuple.filter_extend, List.filter_flatMap, joinTuples]
  · apply congrArg (Tuple.extend · clauses)
    apply List.flatMap_congr
    intro t member
    rw [List.filter_map]
    apply congrArg (List.map _)
    exact List.filter_congr fun row _ => position t member row []
  · intro t' member more
    obtain ⟨t, inside, chosen⟩ := List.mem_flatMap.1 member
    obtain ⟨row, -, rfl⟩ := List.mem_map.1 chosen
    rw [List.append_assoc]
    exact (position t inside row more).trans (position t inside row []).symm

-- Induction on the joins, for whatever tuples the clauses before them have made: all that is kept of
-- these is which aliases they have, in order.
theorem foldlM_applyJoin {joins : List Join} (named : ∀ t ∈ ts, t.names = names)
    (loaded : ∀ join ∈ joins, load store config join.entity = .ok (tables join.entity))
    (distinct : (names ++ joins.map Join.aliasName).Nodup)
    (about : ∀ i join, joins[i]? = some join → ∀ c ∈ join.condition,
      Condition.IsAbout (names ++ (joins.take (i + 1)).map Join.aliasName) ps c) :
    joins.foldlM (applyJoin store config ps) (ts.map Tuple.binding) =
      .ok (((Tuple.extend ts (joins.map (Join.clause tables))).filter
        (Tuple.fits tables ps joins names.length)).map Tuple.binding) := by
  induction joins generalizing ts names with
  | nil =>
    have all : ts.filter (Tuple.fits tables ps [] names.length) = ts :=
      List.filter_eq_self.2 fun _ _ => rfl
    rw [List.map_nil, Tuple.extend_nil, all]
    rfl
  | cons join rest ih =>
    have split : names ++ (join :: rest).map Join.aliasName =
        (names ++ [join.aliasName]) ++ rest.map Join.aliasName := by simp
    have first := List.nodup_append.1 (split ▸ distinct)
    have step := applyJoin_eq (loaded join List.mem_cons_self)
      (fun t member => named t member ▸ first.1)
      (fun t member => named t member ▸ about 0 join rfl)
    have following : ∀ t ∈ joinTuples tables ps ts join, t.names = names ++ [join.aliasName] :=
      names_of_mem_joinTuples named
    have later := ih following
      (fun other member => loaded other (List.mem_cons_of_mem join member)) (split ▸ distinct)
      (fun i other known c narrowed => by simpa using about (i + 1) other known c narrowed)
    have lengths : ∀ t ∈ ts, t.length = names.length := by
      intro t member
      rw [← named t member, Tuple.names, List.length_map]
    have parts : Tuple.fits tables ps (join :: rest) names.length = fun t =>
        t.fits tables ps rest (names.length + 1) &&
          join.admitsAt ps (tables join.entity) names.length t := by
      funext t
      rw [Bool.and_comm]
      rfl
    rw [List.foldlM_cons, step, ok_bind, later, List.map_cons, parts, ← List.filter_filter,
      filter_extend_join _ lengths, List.length_append]
    rfl

/-! ### The FROM clause -/

theorem product_eq (ts : List Tuple) (name : String) (rows : List Json) :
    product (ts.map Tuple.binding) name rows =
      (ts.flatMap fun t =>
        (rows.map some).map fun row => t ++ [(name, row)]).map Tuple.binding := by
  simp [product, List.map_flatMap, List.flatMap_map, Tuple.binding_append, Function.comp_def]

theorem fromRoots_eq {roots : List Root}
    (loaded : ∀ root ∈ roots, load store config root.entity = .ok (tables root.entity)) :
    fromRoots store config roots =
      .ok ((Tuple.product (roots.map (Root.clause tables))).map Tuple.binding) := by
  -- the product grows from tuples that are there already, at first only the empty one
  suffices ∀ ts : List Tuple, roots.foldlM (fun bindings root => do
      return product bindings root.aliasName (← load store config root.entity))
        (ts.map Tuple.binding) =
          .ok ((Tuple.extend ts (roots.map (Root.clause tables))).map Tuple.binding) by
    have whole := this [[]]
    rwa [Tuple.extend_start] at whole
  induction roots with
  | nil =>
    intro ts
    rw [List.map_nil, Tuple.extend_nil]
    rfl
  | cons root rest ih =>
    intro ts
    rw [List.foldlM_cons, loaded root List.mem_cons_self, ok_bind, product_eq, List.map_cons,
      Tuple.extend_cons]
    exact ih (fun other member => loaded other (List.mem_cons_of_mem root member)) _

/-! ### Queries -/

variable {q : Query} {columns : List Column}

theorem names_of_mem_clauses (member : t ∈ Tuple.product (q.clauses tables)) :
    t.names = q.boundAliases := by
  rw [Tuple.names_of_mem_product member]
  simp [Query.clauses, Query.boundAliases, Query.joinAliases, Root.clause, Join.clause,
    Function.comp_def]

/-- The FROM and JOIN clauses together give the tuples that fit. -/
theorem fromRoots_joins_eq (closed : q.Closed columns)
    (loads : ∀ entity ∈ q.entities, load store config entity = .ok (tables entity)) :
    (fromRoots store config q.roots >>= fun bindings =>
      q.joins.foldlM (applyJoin store config q.parameters) bindings) =
    .ok (((Tuple.product (q.clauses tables)).filter
      (Tuple.fits tables q.parameters q.joins q.roots.length)).map Tuple.binding) := by
  have named : ∀ t ∈ Tuple.product (q.roots.map (Root.clause tables)),
      t.names = q.roots.map Root.aliasName := by
    intro t member
    rw [Tuple.names_of_mem_product member, List.map_map]
    rfl
  have joined := foldlM_applyJoin named
    (fun join member => loads join.entity (List.mem_append_right _ (List.mem_map_of_mem member)))
    closed.distinct closed.joins
  rw [fromRoots_eq fun root member =>
    loads root.entity (List.mem_append_left _ (List.mem_map_of_mem member)), ok_bind, joined,
    Tuple.extend_product, List.length_map]
  rfl

/-- Execution gives the tuples of the product that the query admits, in their order. -/
theorem execute_eq_relational (closed : q.Closed columns) (unordered : q.order = [])
    (unlimited : config.maxResultRows = none)
    (loaded : ∀ entity ∈ q.entities, store.allRows entity = .ok (tables entity))
    (within : ∀ entity ∈ q.entities, (tables entity).length ≤ config.maxRowsPerEntity) :
    execute store config q = .ok (((Tuple.product (q.clauses tables)).filter
      (q.admits tables)).map (Tuple.project columns)) := by
  have joined := fromRoots_joins_eq closed fun entity member =>
    load_eq (loaded entity member) (within entity member)
  have named : ∀ t ∈ (Tuple.product (q.clauses tables)).filter
      (Tuple.fits tables q.parameters q.joins q.roots.length), t.names = q.boundAliases :=
    fun t member => names_of_mem_clauses (List.mem_filter.1 member).1
  have kept := keepWhere_eq (fun t member => named t member ▸ closed.distinct)
    (fun t member => named t member ▸ closed.filter)
  rw [List.filter_filter] at kept
  have rows : ∀ t ∈ (Tuple.product (q.clauses tables)).filter (q.admits tables),
      (project q.select ∘ Tuple.binding) t = .ok (t.project columns) := by
    intro t member
    have names := names_of_mem_clauses (List.mem_filter.1 member).1
    rw [Function.comp_apply, closed.select]
    exact project_eq (names ▸ closed.distinct) (names ▸ closed.columns)
  have rooted : ¬ q.roots.isEmpty = true := fun empty => closed.rooted (List.isEmpty_iff.1 empty)
  unfold execute
  rw [if_neg rooted, ← bind_assoc, joined, ok_bind, kept, ok_bind, unordered,
    if_pos List.isEmpty_nil, ok_bind, unlimited]
  simp only [takeAtMost, List.mapM_map]
  exact mapM_eq_map rows

open EntityStore in
/-- Each user with the orders of that user, if there are any, and with each user but the second. -/
def usersWithOrders : Query where
  select := ["u", "o.buyer", "v"]
  roots := [⟨user, "u"⟩]
  joins := [
    ⟨.left, order, "o", some (.compare (.field ⟨"o", "buyer"⟩) .equal (.field ⟨"u", "id"⟩))⟩,
    ⟨.inner, user, "v", none⟩]
  filter := some (.compare (.field ⟨"v", "id"⟩) .notEqual (.parameter "id"))
  parameters := ⟨[("id", .int 2)]⟩

theorem closed_usersWithOrders :
    usersWithOrders.Closed [.row "u", .field ⟨"o", "buyer"⟩, .row "v"] where
  rooted := by simp [usersWithOrders]
  distinct := by decide
  joins := by
    intro i join known c narrowed
    match i with
    | 0 =>
      cases known
      cases narrowed
      exact ⟨by decide, by decide⟩
    | 1 =>
      cases known
      cases narrowed
    | _ + 2 => cases known
  filter := by
    intro c narrowed
    cases narrowed
    exact ⟨by decide, by decide⟩
  select := by decide
  columns := by
    simp only [List.forall_mem_cons]
    refine ⟨.row ?_ ?_, .field ?_ ?_ ?_ ?_ ?_, .row ?_ ?_, fun _ => nofun⟩
    all_goals decide

open EntityStore in
theorem execute_eq_relational_usersWithOrders :
    execute shop {} usersWithOrders = .ok [
      ⟨[("u", .record [("id", .number (.int 1))]), ("o.buyer", .null),
        ("v", .record [("id", .number (.int 1))])]⟩,
      ⟨[("u", .record [("id", .number (.int 2))]), ("o.buyer", .number (.int 2)),
        ("v", .record [("id", .number (.int 1))])]⟩] := by
  have known : ∀ entity ∈ usersWithOrders.entities, entity = user ∨ entity = order := by decide
  have loaded : ∀ entity ∈ usersWithOrders.entities,
      shop.allRows entity = .ok (shopRows entity) := by
    intro entity member
    rcases known entity member with rfl | rfl
    · exact allRows_shop.1
    · exact allRows_shop.2
  exact (execute_eq_relational closed_usersWithOrders rfl rfl loaded (by decide)).trans rfl

end Executor

end Criteria
