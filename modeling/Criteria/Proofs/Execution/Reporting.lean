import Criteria.Proofs.Condition.Reach
import Criteria.Proofs.Execution.Relational
import Criteria.Proofs.Execution.Stages

/-!
Which unbound names an execution reports. Names are looked up row by row, so a
name that is nowhere bound goes unnoticed as long as there is no row to look it
up for. An execution fails exactly when it comes to a name that is not bound
there, if all entities load and all select items can be read.
-/

set_option autoImplicit false

namespace Criteria

/-- What a name in a query refers to: the row under an alias, or a parameter. -/
inductive Reference where
  | row (aliasName : String)
  | parameter (name : String)

namespace Reference

def error : Reference → ExecutionError
  | .row aliasName => .unknownAlias aliasName
  | .parameter name => .unknownParameter name

/-- There is something to refer to, where these aliases are bound. -/
def IsBound (aliases : List String) (ps : Parameters) : Reference → Prop
  | .row aliasName => aliasName ∈ aliases
  | .parameter name => name ∈ ps.names

end Reference

def Operand.reference : Operand → Reference
  | .field ref => .row ref.aliasName
  | .parameter name => .parameter name

/-! ### Looking names up -/

namespace Binding

variable {binding : Binding} {names : List String} {name : String} {row value : Json}
  {ps : Parameters} {operand : Operand} {ref : FieldRef} {e : ExecutionError}

theorem Binds.mem_of_row (binds : binding.Binds names) (found : binding.row name = .ok row) :
    name ∈ names := by
  rw [← binds name]
  unfold Binding.row at found
  cases known : Dictionary.find? binding name with
  | none => simp [known] at found
  | some row => rfl

theorem Binds.notMem_of_row (binds : binding.Binds names) (failed : binding.row name = .error e) :
    name ∉ names ∧ e = .unknownAlias name := by
  rw [← binds name]
  unfold Binding.row at failed
  cases known : Dictionary.find? binding name with
  | none =>
    simp only [known] at failed
    cases failed
    exact ⟨by simp, rfl⟩
  | some row => simp [known] at failed

theorem row_of_field (found : binding.field ref = .ok value) :
    ∃ row, binding.row ref.aliasName = .ok row := by
  unfold Binding.field at found
  cases known : binding.row ref.aliasName with
  | error e => simp [known, Except.map] at found
  | ok row => exact ⟨row, rfl⟩

theorem row_of_field_eq_error (failed : binding.field ref = .error e) :
    binding.row ref.aliasName = .error e := by
  unfold Binding.field at failed
  cases known : binding.row ref.aliasName with
  | error other => simpa [known, Except.map] using failed
  | ok row => simp [known, Except.map] at failed

theorem Binds.isBound_of_evaluate (binds : binding.Binds names)
    (evaluates : operand.evaluate binding ps = .ok value) :
    operand.reference.IsBound names ps := by
  cases operand with
  | field ref =>
    obtain ⟨row, found⟩ := row_of_field evaluates
    exact binds.mem_of_row found
  | parameter name =>
    by_contra absent
    have unknown := Parameters.get?_eq_none_iff.2 absent
    simp [Operand.evaluate, unknown] at evaluates

theorem Binds.not_isBound_of_evaluate (binds : binding.Binds names)
    (failed : operand.evaluate binding ps = .error e) :
    ¬ operand.reference.IsBound names ps ∧ e = operand.reference.error := by
  cases operand with
  | field ref => exact binds.notMem_of_row (row_of_field_eq_error failed)
  | parameter name =>
    simp only [Operand.evaluate] at failed
    cases known : ps.get? name with
    | some literal => simp [known] at failed
    | none =>
      simp only [known] at failed
      cases failed
      exact ⟨Parameters.get?_eq_none_iff.1 known, rfl⟩

end Binding

namespace Executor

/-- The alias that a select item is about, unless the item cannot be read. -/
def itemAlias? (item : String) : Option String :=
  match item.toList.span (· != '.') with
  | (_, []) => some item
  | (aliasName, _ :: field) =>
    if aliasName.isEmpty || field.isEmpty || field.contains '.' then none
    else some (String.ofList aliasName)

variable {binding : Binding} {item name : String} {value : Json} {e : ExecutionError}

theorem row_of_selectItem (selected : selectItem binding item = .ok value) :
    ∃ name row, itemAlias? item = some name ∧ binding.row name = .ok row := by
  unfold selectItem at selected
  unfold itemAlias?
  generalize item.toList.span (· != '.') = parts at selected ⊢
  match parts with
  | (_, []) => exact ⟨item, value, rfl, selected⟩
  | (aliasName, _ :: field) =>
    simp only at selected ⊢
    split at selected
    · cases selected
    · next readable =>
      obtain ⟨row, found⟩ := Binding.row_of_field selected
      exact ⟨_, row, if_neg readable, found⟩

theorem row_of_selectItem_eq_error (failed : selectItem binding item = .error e) :
    (itemAlias? item = none ∧ e = .unsupportedSelect item) ∨
    ∃ name, itemAlias? item = some name ∧ binding.row name = .error e := by
  unfold selectItem at failed
  unfold itemAlias?
  generalize item.toList.span (· != '.') = parts at failed ⊢
  match parts with
  | (_, []) => exact .inr ⟨item, rfl, failed⟩
  | (aliasName, _ :: field) =>
    simp only at failed ⊢
    split at failed
    · next unreadable =>
      cases failed
      exact .inl ⟨if_pos unreadable, rfl⟩
    · next readable =>
      exact .inr ⟨_, if_neg readable, Binding.row_of_field_eq_error failed⟩

theorem selectItem_of_project {select : List String} {row : ResultRow}
    (projected : project select binding = .ok row) :
    ∀ item ∈ select, ∃ value, selectItem binding item = .ok value := by
  cases select with
  | nil => exact fun _ member => nomatch member
  | cons first rest =>
    obtain ⟨columns, each, -⟩ := bind_eq_ok_iff.1 projected
    intro item member
    obtain ⟨column, step⟩ := ok_of_mapM each item member
    obtain ⟨value, selected, -⟩ := bind_eq_ok_iff.1 step
    exact ⟨value, selected⟩

theorem exists_of_project_eq_error {select : List String}
    (failed : project select binding = .error e) :
    ∃ item ∈ select, selectItem binding item = .error e := by
  cases select with
  | nil => cases failed
  | cons first rest =>
    rcases bind_eq_error_iff.1 failed with failed | ⟨columns, -, done⟩
    · obtain ⟨item, member, step⟩ := exists_of_mapM_eq_error failed
      rcases bind_eq_error_iff.1 step with selected | ⟨value, -, done⟩
      · exact ⟨item, member, selected⟩
      · cases done
    · cases done

end Executor

/-! ### Coming to a name -/

open Executor in
/-- An execution needs the reference at a point where these aliases are bound. It comes to a name in
a join condition or the filter when evaluation does, on a binding that is there; to one in the order
when some binding has passed the filter; and to one in the select list when some binding is left to
be projected. -/
inductive Query.ComesTo (store : EntityStore) (config : ExecutorConfig) (q : Query) :
    List String → Reference → Prop where
  | join {i join c bindings binding rows row operand} : q.joins[i]? = some join →
    join.condition = some c → joinedUpTo store config q i = .ok bindings → binding ∈ bindings →
    load store config join.entity = .ok rows → row ∈ rows →
    c.Reaches (candidate join binding row) q.parameters operand →
    ComesTo store config q (q.aliasesUpTo (i + 1)) operand.reference
  | filter {c bindings binding operand} : q.filter = some c →
    joinedUpTo store config q q.joins.length = .ok bindings → binding ∈ bindings →
    c.Reaches binding q.parameters operand →
    ComesTo store config q q.boundAliases operand.reference
  | order {bindings binding key} : filtered store config q = .ok bindings → binding ∈ bindings →
    key ∈ q.order → ComesTo store config q q.boundAliases (.row key.field.aliasName)
  | select {bindings binding item name} : ordered store config q = .ok bindings →
    binding ∈ takeAtMost config.maxResultRows bindings → item ∈ q.select →
    itemAlias? item = some name → ComesTo store config q q.boundAliases (.row name)

namespace Executor

variable {store : EntityStore} {config : ExecutorConfig} {q : Query} {rows : List ResultRow}
  {bindings : List Binding} {binding : Binding} {join : Join} {aliases : List String}
  {reference : Reference} {e : ExecutionError} {i : Nat} {row : Json}

theorem binds_candidate (position : q.joins[i]? = some join)
    (made : joinedUpTo store config q i = .ok bindings) (member : binding ∈ bindings) :
    Binding.Binds (candidate join binding row) (q.aliasesUpTo (i + 1)) := by
  rw [Query.aliasesUpTo_succ position]
  exact (binds_of_joinedUpTo made binding member).insert join.aliasName row

theorem aliasesUpTo_length (q : Query) : q.aliasesUpTo q.joins.length = q.boundAliases := by
  rw [Query.aliasesUpTo, List.take_length]
  rfl

/-- Whatever an execution that succeeds has come to is bound. -/
theorem isBound_of_execute (executed : execute store config q = .ok rows)
    (comes : q.ComesTo store config aliases reference) :
    reference.IsBound aliases q.parameters := by
  obtain ⟨-, last, done, projected⟩ := stages_of_execute executed
  obtain ⟨passed, selected, sorted⟩ := bind_eq_ok_iff.1 done
  obtain ⟨all, joined, kept⟩ := bind_eq_ok_iff.1 selected
  cases comes with
  | @join i join c bindings binding rows row operand position narrowed made member loaded inside
      reaches =>
    have bound : i < q.joins.length := (List.getElem?_eq_some_iff.1 position).1
    obtain ⟨next, step⟩ := joinedUpTo_of_le (Nat.succ_le_of_lt bound) le_rfl joined
    rw [joinedUpTo_succ position, made, ok_bind] at step
    obtain ⟨found, same, evaluated, -⟩ := applyJoin_eq_ok step
    cases loaded.symm.trans same
    obtain ⟨holds, evaluates⟩ := evaluated binding member row inside c narrowed
    obtain ⟨value, known⟩ := reaches.evaluates evaluates
    exact (binds_candidate position made member).isBound_of_evaluate known
  | @filter c bindings binding operand narrowed made member reaches =>
    cases joined.symm.trans made
    obtain ⟨keep, -, each⟩ := keepWhere_eq_ok kept
    obtain ⟨value, known⟩ := reaches.evaluates (each binding member c narrowed)
    rw [← aliasesUpTo_length]
    exact (binds_of_joinedUpTo made binding member).isBound_of_evaluate known
  | @order bindings binding key made member keyed =>
    cases selected.symm.trans made
    have present : ¬ q.order.isEmpty = true := by
      rw [List.isEmpty_iff]
      exact List.ne_nil_of_mem keyed
    rw [if_neg present] at sorted
    obtain ⟨value, known⟩ := (sortBindings_eq_ok sorted).2 binding member key keyed
    obtain ⟨row, found⟩ := Binding.row_of_field known
    exact (binds_of_filtered made binding member).mem_of_row found
  | @select bindings binding item name made member chosen readable =>
    cases done.symm.trans made
    obtain ⟨result, step⟩ := ok_of_mapM projected binding member
    obtain ⟨value, read⟩ := selectItem_of_project step item chosen
    obtain ⟨other, row, same, found⟩ := row_of_selectItem read
    cases readable.symm.trans same
    obtain ⟨before, early, perm⟩ := perm_of_ordered made
    have inside := perm.mem_iff.1 (takeAtMost_subset _ _ member)
    exact (binds_of_filtered early binding inside).mem_of_row found

/-! ### Causes of failure -/

/-- The error is that of an unbound name that the execution comes to. -/
def Misses (store : EntityStore) (config : ExecutorConfig) (q : Query) (e : ExecutionError) : Prop :=
  ∃ aliases reference, q.ComesTo store config aliases reference ∧
    ¬ reference.IsBound aliases q.parameters ∧ e = reference.error

theorem misses_of_evaluate {names : List String} {c : Condition} (binds : binding.Binds names)
    (failed : c.evaluate binding q.parameters = .error e)
    (comes : ∀ operand, c.Reaches binding q.parameters operand →
      q.ComesTo store config names operand.reference) : Misses store config q e := by
  obtain ⟨operand, reaches, unknown⟩ := Condition.exists_reaches_of_error failed
  exact ⟨names, operand.reference, comes operand reaches, binds.not_isBound_of_evaluate unknown⟩

theorem cause_of_joinedUpTo (failed : joinedUpTo store config q q.joins.length = .error e) :
    (∃ entity ∈ q.entities, load store config entity = .error e) ∨ Misses store config q e := by
  rcases exists_of_joinedUpTo_eq_error le_rfl failed with
    ⟨root, member, unloaded⟩ | ⟨i, join, bindings, position, made, step⟩
  · exact .inl ⟨root.entity, List.mem_append_left _ (List.mem_map_of_mem member), unloaded⟩
  · rcases exists_of_applyJoin_eq_error step with
      unloaded | ⟨rows, loaded, binding, member, row, inside, c, narrowed, failed⟩
    · have listed := List.mem_map_of_mem (f := Join.entity) (List.mem_of_getElem? position)
      exact .inl ⟨join.entity, List.mem_append_right _ listed, unloaded⟩
    · exact .inr (misses_of_evaluate (binds_candidate position made member) failed fun _ reaches =>
        .join position narrowed made member loaded inside reaches)

theorem cause_of_ordered (failed : ordered store config q = .error e) :
    (∃ entity ∈ q.entities, load store config entity = .error e) ∨ Misses store config q e := by
  rcases bind_eq_error_iff.1 failed with failed | ⟨passed, selected, failed⟩
  · rcases bind_eq_error_iff.1 failed with failed | ⟨all, made, failed⟩
    · exact cause_of_joinedUpTo failed
    · obtain ⟨binding, member, c, narrowed, failed⟩ := exists_of_keepWhere_eq_error failed
      have binds := binds_of_joinedUpTo made binding member
      rw [aliasesUpTo_length] at binds
      exact .inr (misses_of_evaluate binds failed fun _ reaches =>
        .filter narrowed made member reaches)
  · split at failed
    · cases failed
    · obtain ⟨binding, member, key, keyed, unknown⟩ := exists_of_sortBindings_eq_error failed
      exact .inr ⟨_, _, .order selected member keyed, (binds_of_filtered selected binding
        member).notMem_of_row (Binding.row_of_field_eq_error unknown)⟩

theorem cause_of_projection {bindings : List Binding}
    (made : ordered store config q = .ok bindings)
    (failed : (takeAtMost config.maxResultRows bindings).mapM (project q.select) = .error e) :
    (∃ item ∈ q.select, itemAlias? item = none ∧ e = .unsupportedSelect item) ∨
      Misses store config q e := by
  obtain ⟨binding, member, step⟩ := exists_of_mapM_eq_error failed
  obtain ⟨item, chosen, unread⟩ := exists_of_project_eq_error step
  rcases row_of_selectItem_eq_error unread with unreadable | ⟨name, readable, unknown⟩
  · exact .inl ⟨item, chosen, unreadable⟩
  · obtain ⟨before, early, perm⟩ := perm_of_ordered made
    have inside := perm.mem_iff.1 (takeAtMost_subset _ _ member)
    exact .inr ⟨_, _, .select made member chosen readable,
      (binds_of_filtered early binding inside).notMem_of_row unknown⟩

/-- An execution reports a name that it comes to and that is not bound there. It fails for nothing
else, but for a query without a FROM clause, an entity that does not load and a select item that
cannot be read. -/
theorem execute_reports (store : EntityStore) (config : ExecutorConfig) (q : Query) :
    (∀ aliases reference, q.ComesTo store config aliases reference →
      ¬ reference.IsBound aliases q.parameters → ∃ e, execute store config q = .error e) ∧
    ∀ e, execute store config q = .error e →
      (q.roots = [] ∧ e = .noRoot) ∨
      (∃ entity ∈ q.entities, load store config entity = .error e) ∨
      (∃ item ∈ q.select, itemAlias? item = none ∧ e = .unsupportedSelect item) ∨
      ∃ aliases reference, q.ComesTo store config aliases reference ∧
        ¬ reference.IsBound aliases q.parameters ∧ e = reference.error := by
  constructor
  · intro aliases reference comes unbound
    cases executed : execute store config q with
    | ok rows => exact absurd (isBound_of_execute executed comes) unbound
    | error e => exact ⟨e, rfl⟩
  · intro e failed
    by_cases rooted : q.roots = []
    · rw [execute, rooted] at failed
      cases failed
      exact .inl ⟨rooted, rfl⟩
    · rw [execute_eq_stages rooted] at failed
      right
      rcases bind_eq_error_iff.1 failed with failed | ⟨last, done, failed⟩
      · exact (cause_of_ordered failed).imp_right .inr
      · exact .inr (cause_of_projection done failed)

def numberOf (aliasName : String) : Condition :=
  .compare (.field ⟨aliasName, "id"⟩) .equal (.parameter "number")

/-- The users of a number, by a condition that also names an alias which no clause binds. -/
def strayAlias (number : Int64) : Query where
  select := ["u"]
  roots := [⟨EntityStore.user, "u"⟩]
  filter := some (.all [numberOf "u", numberOf "v"])
  parameters := ⟨[("number", .int number)]⟩

/-- The second user passes the first part of the filter, and so the alias is looked up. -/
theorem execute_reports_strayAlias :
    ∃ e, execute EntityStore.shop {} (strayAlias 2) = .error e := by
  let second : Binding := [("u", .record [("id", .number (.int 2))])]
  have passed : ∀ earlier ∈ [numberOf "u"],
      earlier.evaluate second (strayAlias 2).parameters = .ok true := by
    intro earlier member
    cases List.mem_singleton.1 member
    rfl
  have made : joinedUpTo EntityStore.shop {} (strayAlias 2) 0 =
      .ok [[("u", .record [("id", .number (.int 1))])], second] := rfl
  have reaches : Condition.Reaches second (strayAlias 2).parameters
      (.all [numberOf "u", numberOf "v"]) (.field ⟨"v", "id"⟩) :=
    @Condition.Reaches.all _ _ [numberOf "u"] (numberOf "v") [] _ passed .left
  have comes : (strayAlias 2).ComesTo EntityStore.shop {} ["u"] (.row "v") :=
    .filter rfl made (by simp) reaches
  exact (execute_reports EntityStore.shop {} (strayAlias 2)).1 _ _ comes
    (by decide : "v" ∉ ["u"])

/-- No user has the number three, so the alias is not looked up; nor is one in the select list as
long as there are no users. -/
theorem execute_unbound_unnoticed :
    "v" ∉ (strayAlias 3).boundAliases ∧
    execute EntityStore.shop {} (strayAlias 3) = .ok [] ∧
    execute {} {} { select := ["x"], roots := [⟨EntityStore.user, "u"⟩] } = .ok [] :=
  ⟨by decide, rfl, rfl⟩

end Executor

end Criteria
