import Criteria.Execution.Executor
import Criteria.Proofs.Traversal

/-!
The stages of an execution: joining, filtering, ordering. Each is a list of
bindings made from that of the stage before, and a binding holds a row under
exactly the aliases of the clauses that have made it.
-/

set_option autoImplicit false

namespace Criteria

/-- The binding holds a row under each of these aliases, and under no other. -/
def Binding.Binds (binding : Binding) (names : List String) : Prop :=
  ∀ name, (Dictionary.find? binding name).isSome ↔ name ∈ names

theorem Binding.Binds.insert {binding : Binding} {names : List String} (binds : binding.Binds names)
    (name : String) (row : Json) :
    Binding.Binds (Dictionary.insert name row binding) (names ++ [name]) := by
  intro other
  rw [Dictionary.find?_insert, List.mem_append, List.mem_singleton, ← binds other]
  by_cases same : other = name <;> simp [same]

/-- The aliases that the FROM clause and the first joins bind. -/
def Query.aliasesUpTo (q : Query) (n : Nat) : List String :=
  q.roots.map Root.aliasName ++ (q.joins.take n).map Join.aliasName

theorem Query.aliasesUpTo_succ {q : Query} {n : Nat} {join : Join}
    (position : q.joins[n]? = some join) :
    q.aliasesUpTo (n + 1) = q.aliasesUpTo n ++ [join.aliasName] := by
  simp [aliasesUpTo, List.take_add_one, position]

namespace Executor

variable {ps : Parameters} {condition : Option Condition} {bindings joined kept : List Binding}
  {binding : Binding} {join : Join} {rows : List Json} {store : EntityStore}
  {config : ExecutorConfig} {q : Query} {names : List String} {e : ExecutionError} {n : Nat}

/-! ### Filters -/

theorem keepWhere_eq_ok (ran : keepWhere ps condition bindings = .ok kept) :
    ∃ keep : Binding → Bool, kept = bindings.filter keep ∧
      ∀ binding ∈ bindings, ∀ c ∈ condition, c.evaluate binding ps = .ok (keep binding) := by
  cases condition with
  | none =>
    cases ran
    exact ⟨fun _ => true, (List.filter_eq_self.2 fun _ _ => rfl).symm, fun _ _ _ => nofun⟩
  | some c =>
    obtain ⟨keep, each, rfl⟩ := filterM_eq_ok ran
    refine ⟨keep, rfl, fun binding member other same => ?_⟩
    cases same
    exact each binding member

theorem exists_of_keepWhere_eq_error (failed : keepWhere ps condition bindings = .error e) :
    ∃ binding ∈ bindings, ∃ c ∈ condition, c.evaluate binding ps = .error e := by
  cases condition with
  | none => cases failed
  | some c =>
    obtain ⟨binding, member, step⟩ := exists_of_filterM_eq_error failed
    exact ⟨binding, member, c, rfl, step⟩

/-! ### Joins -/

/-- What a join condition is asked on: a binding with a row of the joined entity. -/
def candidate (join : Join) (binding : Binding) (row : Json) : Binding :=
  Dictionary.insert join.aliasName row binding

theorem joinRows_eq_ok (ran : joinRows ps join rows binding = .ok joined) :
    (∀ row ∈ rows, ∀ c ∈ join.condition,
      ∃ holds, c.evaluate (candidate join binding row) ps = .ok holds) ∧
    ∀ b ∈ joined, ∃ row, b = candidate join binding row := by
  obtain ⟨found, selected, made⟩ := bind_eq_ok_iff.1 ran
  obtain ⟨keep, rfl, each⟩ := keepWhere_eq_ok selected
  refine ⟨fun row member c narrowed => ⟨_, each _ (List.mem_map_of_mem member) c narrowed⟩, ?_⟩
  split at made
  · cases made
    intro b member
    cases List.mem_singleton.1 member
    exact ⟨.null, rfl⟩
  · cases made
    intro b member
    obtain ⟨row, -, rfl⟩ := List.mem_map.1 (List.mem_filter.1 member).1
    exact ⟨row, rfl⟩

theorem exists_of_joinRows_eq_error (failed : joinRows ps join rows binding = .error e) :
    ∃ row ∈ rows, ∃ c ∈ join.condition,
      c.evaluate (candidate join binding row) ps = .error e := by
  rcases bind_eq_error_iff.1 failed with failed | ⟨found, -, made⟩
  · obtain ⟨b, member, c, narrowed, step⟩ := exists_of_keepWhere_eq_error failed
    obtain ⟨row, inside, rfl⟩ := List.mem_map.1 member
    exact ⟨row, inside, c, narrowed, step⟩
  · split at made <;> cases made

theorem applyJoin_eq_ok (ran : applyJoin store config ps bindings join = .ok joined) :
    ∃ rows, load store config join.entity = .ok rows ∧
      (∀ binding ∈ bindings, ∀ row ∈ rows, ∀ c ∈ join.condition,
        ∃ holds, c.evaluate (candidate join binding row) ps = .ok holds) ∧
      ∀ b ∈ joined, ∃ binding ∈ bindings, ∃ row, b = candidate join binding row := by
  obtain ⟨rows, loaded, ran⟩ := bind_eq_ok_iff.1 ran
  obtain ⟨groups, each, made⟩ := bind_eq_ok_iff.1 ran
  cases made
  refine ⟨rows, loaded, fun binding member => ?_, fun b member => ?_⟩
  · obtain ⟨group, step⟩ := ok_of_mapM each binding member
    exact (joinRows_eq_ok step).1
  · obtain ⟨group, inside, member⟩ := List.mem_flatten.1 member
    obtain ⟨binding, source, step⟩ := source_of_mapM each group inside
    obtain ⟨row, same⟩ := (joinRows_eq_ok step).2 b member
    exact ⟨binding, source, row, same⟩

theorem exists_of_applyJoin_eq_error
    (failed : applyJoin store config ps bindings join = .error e) :
    load store config join.entity = .error e ∨
    ∃ rows, load store config join.entity = .ok rows ∧ ∃ binding ∈ bindings, ∃ row ∈ rows,
      ∃ c ∈ join.condition, c.evaluate (candidate join binding row) ps = .error e := by
  rcases bind_eq_error_iff.1 failed with failed | ⟨rows, loaded, failed⟩
  · exact .inl failed
  · rcases bind_eq_error_iff.1 failed with failed | ⟨groups, -, made⟩
    · obtain ⟨binding, member, step⟩ := exists_of_mapM_eq_error failed
      exact .inr ⟨rows, loaded, binding, member, exists_of_joinRows_eq_error step⟩
    · cases made

/-! ### The FROM clause -/

theorem binds_of_fromRoots {roots : List Root}
    (ran : fromRoots store config roots = .ok bindings) :
    ∀ binding ∈ bindings, binding.Binds (roots.map Root.aliasName) := by
  -- the product grows from bindings that are there already, at first only the empty one
  suffices ∀ (start : List Binding) (names : List String),
      (∀ binding ∈ start, binding.Binds names) → roots.foldlM (fun bindings root => do
        return product bindings root.aliasName (← load store config root.entity)) start =
          .ok bindings → ∀ binding ∈ bindings, binding.Binds (names ++ roots.map Root.aliasName) by
    refine this [[]] [] (fun binding member => ?_) ran
    cases List.mem_singleton.1 member
    intro name
    simp
  clear ran
  induction roots with
  | nil =>
    intro start names binds ran
    cases ran
    simpa using binds
  | cons root rest ih =>
    intro start names binds ran
    rw [List.foldlM_cons] at ran
    obtain ⟨grown, step, ran⟩ := bind_eq_ok_iff.1 ran
    obtain ⟨rows, -, made⟩ := bind_eq_ok_iff.1 step
    cases made
    rw [List.map_cons, List.append_cons]
    refine ih _ _ (fun b member => ?_) ran
    obtain ⟨binding, inside, chosen⟩ := List.mem_flatMap.1 member
    obtain ⟨row, -, rfl⟩ := List.mem_map.1 chosen
    exact (binds binding inside).insert root.aliasName row

theorem exists_of_fromRoots_eq_error {roots : List Root}
    (failed : fromRoots store config roots = .error e) :
    ∃ root ∈ roots, load store config root.entity = .error e := by
  obtain ⟨root, member, start, step⟩ := exists_of_foldlM_eq_error failed
  rcases bind_eq_error_iff.1 step with unloaded | ⟨rows, -, made⟩
  · exact ⟨root, member, unloaded⟩
  · cases made

/-! ### The stages of a query -/

/-- The bindings that the FROM clause and the first joins give. -/
def joinedUpTo (store : EntityStore) (config : ExecutorConfig) (q : Query) (n : Nat) :
    Except ExecutionError (List Binding) := do
  let bindings ← fromRoots store config q.roots
  (q.joins.take n).foldlM (applyJoin store config q.parameters) bindings

/-- The bindings on which the filter holds. -/
def filtered (store : EntityStore) (config : ExecutorConfig) (q : Query) :
    Except ExecutionError (List Binding) := do
  keepWhere q.parameters q.filter (← joinedUpTo store config q q.joins.length)

/-- The bindings on which the filter holds, in the order that the query asks for. -/
def ordered (store : EntityStore) (config : ExecutorConfig) (q : Query) :
    Except ExecutionError (List Binding) := do
  let bindings ← filtered store config q
  if q.order.isEmpty then return bindings else sortBindings q.order bindings

theorem execute_eq_stages (rooted : q.roots ≠ []) :
    execute store config q = ordered store config q >>= fun bindings =>
      (takeAtMost config.maxResultRows bindings).mapM (project q.select) := by
  have present : ¬ q.roots.isEmpty = true := fun empty => rooted (List.isEmpty_iff.1 empty)
  unfold execute ordered filtered joinedUpTo
  rw [if_neg present, List.take_length]
  simp only [bind_assoc]
  cases q.order.isEmpty <;> rfl

/-- An execution that succeeds has gone through all stages. -/
theorem stages_of_execute {results : List ResultRow}
    (executed : execute store config q = .ok results) :
    q.roots ≠ [] ∧ ∃ bindings, ordered store config q = .ok bindings ∧
      (takeAtMost config.maxResultRows bindings).mapM (project q.select) = .ok results := by
  have rooted : q.roots ≠ [] := by
    intro empty
    rw [execute, empty] at executed
    cases executed
  rw [execute_eq_stages rooted] at executed
  exact ⟨rooted, bind_eq_ok_iff.1 executed⟩

theorem joinedUpTo_succ (position : q.joins[n]? = some join) :
    joinedUpTo store config q (n + 1) = joinedUpTo store config q n >>= fun bindings =>
      applyJoin store config q.parameters bindings join := by
  unfold joinedUpTo
  rw [List.take_add_one, position]
  simp [List.foldlM_append]

theorem binds_of_joinedUpTo (ran : joinedUpTo store config q n = .ok bindings) :
    ∀ binding ∈ bindings, binding.Binds (q.aliasesUpTo n) := by
  induction n generalizing bindings with
  | zero =>
    obtain ⟨found, ran, same⟩ := bind_eq_ok_iff.1 ran
    cases same
    simpa [Query.aliasesUpTo] using binds_of_fromRoots ran
  | succ n ih =>
    cases position : q.joins[n]? with
    | none =>
      have all := List.getElem?_eq_none_iff.1 position
      have same : joinedUpTo store config q (n + 1) = joinedUpTo store config q n := by
        unfold joinedUpTo
        rw [List.take_of_length_le all, List.take_of_length_le (Nat.le_succ_of_le all)]
      rw [Query.aliasesUpTo, List.take_of_length_le (Nat.le_succ_of_le all),
        ← List.take_of_length_le all]
      exact ih (same ▸ ran)
    | some join =>
      rw [joinedUpTo_succ position] at ran
      obtain ⟨before, early, step⟩ := bind_eq_ok_iff.1 ran
      obtain ⟨rows, -, -, sources⟩ := applyJoin_eq_ok step
      intro b member
      obtain ⟨binding, inside, row, rfl⟩ := sources b member
      rw [Query.aliasesUpTo_succ position]
      exact (ih early binding inside).insert join.aliasName row

/-- A stage that is reached has those before it behind it. -/
theorem joinedUpTo_of_le {m : Nat} (early : n ≤ m) (inside : m ≤ q.joins.length)
    (ran : joinedUpTo store config q m = .ok bindings) :
    ∃ before, joinedUpTo store config q n = .ok before := by
  induction m generalizing bindings with
  | zero =>
    cases Nat.le_zero.1 early
    exact ⟨bindings, ran⟩
  | succ m ih =>
    rcases Nat.eq_or_lt_of_le early with rfl | early
    · exact ⟨bindings, ran⟩
    · rw [joinedUpTo_succ (List.getElem?_eq_getElem inside)] at ran
      obtain ⟨before, earlier, -⟩ := bind_eq_ok_iff.1 ran
      exact ih (Nat.le_of_lt_succ early) (Nat.le_of_succ_le inside) earlier

theorem exists_of_joinedUpTo_eq_error (inside : n ≤ q.joins.length)
    (failed : joinedUpTo store config q n = .error e) :
    (∃ root ∈ q.roots, load store config root.entity = .error e) ∨
    ∃ i join before, q.joins[i]? = some join ∧ joinedUpTo store config q i = .ok before ∧
      applyJoin store config q.parameters before join = .error e := by
  induction n with
  | zero =>
    rcases bind_eq_error_iff.1 failed with failed | ⟨_, -, done⟩
    · exact .inl (exists_of_fromRoots_eq_error failed)
    · cases done
  | succ n ih =>
    have position : q.joins[n]? = some q.joins[n] := List.getElem?_eq_getElem inside
    rw [joinedUpTo_succ position] at failed
    rcases bind_eq_error_iff.1 failed with failed | ⟨before, early, step⟩
    · exact ih (Nat.le_of_succ_le inside) failed
    · exact .inr ⟨n, _, before, position, early, step⟩

theorem binds_of_filtered (ran : filtered store config q = .ok bindings) :
    ∀ binding ∈ bindings, binding.Binds q.boundAliases := by
  obtain ⟨found, early, selected⟩ := bind_eq_ok_iff.1 ran
  obtain ⟨keep, rfl, -⟩ := keepWhere_eq_ok selected
  intro binding member
  have binds := binds_of_joinedUpTo early binding (List.mem_filter.1 member).1
  rwa [Query.aliasesUpTo, List.take_length] at binds

/-! ### Ordering -/

theorem sortBindings_eq_ok {order : List SortKey} (ran : sortBindings order bindings = .ok kept) :
    kept.Perm bindings ∧
      ∀ binding ∈ bindings, ∀ key ∈ order, ∃ value, binding.field key.field = .ok value := by
  obtain ⟨keyed, each, sorted⟩ := bind_eq_ok_iff.1 ran
  cases sorted
  have values : keyed.map Prod.snd = bindings := by
    have pairs := mapM_eq_ok_iff.1 each
    clear each ran
    induction pairs with
    | nil => rfl
    | cons head _ ih =>
      obtain ⟨keys, -, made⟩ := bind_eq_ok_iff.1 head
      cases made
      rw [List.map_cons, ih]
  refine ⟨values ▸ (Sorting.sort_perm _ keyed).map Prod.snd, fun binding member => ?_⟩
  obtain ⟨pair, step⟩ := ok_of_mapM each binding member
  obtain ⟨keys, known, -⟩ := bind_eq_ok_iff.1 step
  exact ok_of_mapM known

theorem exists_of_sortBindings_eq_error {order : List SortKey}
    (failed : sortBindings order bindings = .error e) :
    ∃ binding ∈ bindings, ∃ key ∈ order, binding.field key.field = .error e := by
  rcases bind_eq_error_iff.1 failed with failed | ⟨keyed, -, done⟩
  · obtain ⟨binding, member, step⟩ := exists_of_mapM_eq_error failed
    rcases bind_eq_error_iff.1 step with unknown | ⟨keys, -, done⟩
    · exact ⟨binding, member, exists_of_mapM_eq_error unknown⟩
    · cases done
  · cases done

/-- Ordering changes nothing but the order. -/
theorem perm_of_ordered (ran : ordered store config q = .ok kept) :
    ∃ bindings, filtered store config q = .ok bindings ∧ kept.Perm bindings := by
  obtain ⟨bindings, early, sorted⟩ := bind_eq_ok_iff.1 ran
  refine ⟨bindings, early, ?_⟩
  split at sorted
  · cases sorted
    exact .refl _
  · exact (sortBindings_eq_ok sorted).1

end Executor

end Criteria
