import Criteria.Proofs.Execution.Relational
import Criteria.Proofs.Translation.Meaning
import Criteria.Proofs.Translation.Totality

/-!
Matching agrees with judging in memory. A query for one entity that is matched
by specifications over that entity finds the rows that satisfy all of them.
-/

set_option autoImplicit false

namespace Criteria

/-- The value of the filter where an entity's row is all that is bound. -/
def Query.filterOn (q : Query) (name : String) (row : Json) : Except ExecutionError Bool :=
  match q.filter with
  | none => .ok true
  | some c => c.evaluate [(name, row)] q.parameters

namespace Context

variable {ctx after : Context} {name : String} {row : Json} {holds : Bool}

theorem filterOn_andWhere (ctx : Context) (c : Condition) :
    (ctx.andWhere c).query.filterOn name row = (do
      if ← ctx.query.filterOn name row then c.evaluate [(name, row)] ctx.query.parameters
      else return false) := by
  unfold Query.filterOn andWhere
  cases ctx.query.filter with
  | none => rfl
  | some old => exact Condition.evaluate_andAlso old c

theorem Extends.filterOn_eq (grown : ctx.Extends after)
    (known : ctx.query.filterOn name row = .ok holds) :
    after.query.filterOn name row = .ok holds := by
  unfold Query.filterOn at known ⊢
  rw [grown.filter_eq]
  cases filter : ctx.query.filter with
  | none => rwa [filter] at known
  | some c =>
    rw [filter] at known
    exact Condition.evaluate_kept (grown.keptOn _) known

end Context

/-- A query for one entity under one alias, the filter of which keeps certain rows. -/
structure Query.Finds (q : Query) (entity : EntityType) (name : String) (keep : Json → Bool) :
    Prop where
  select_eq : q.select = [name]
  roots_eq : q.roots = [⟨entity, name⟩]
  joins_eq : q.joins = []
  order_eq : q.order = []
  filterOn_eq : ∀ row, q.filterOn name row = .ok (keep row)

variable {entity : EntityType} {name : String} {keep : Json → Bool}

/-! ### Matching -/

namespace Registry

variable {Leaf Object : Type} [SpecLeaf Leaf Object] {reg : Registry Leaf} {spec : Spec Leaf}
  {specs : List (Spec Leaf)} {ctx : Context}

theorem matchSpec_finds (has : reg.HasStandard) (plain : spec.IsPlain)
    (about : ∀ c ∈ spec.comparisons, c.entity = entity) (finds : ctx.query.Finds entity name keep) :
    ∃ after, reg.matchSpec spec ctx = (.ok (), after) ∧
      after.query.Finds entity name (fun row => keep row && spec.isSatisfiedBy (.row row)) := by
  obtain ⟨c, mid, translated⟩ := exists_translate has plain ctx
  have standard := has.standardOn plain
  have grown := (translates_of_translate standard translated).extends_context
  -- whatever aliases the translation derives, the entity keeps that of the FROM clause
  have named : mid.alias? entity = some name := by
    apply grown.alias?_eq
    simp [Context.alias?, Query.rootAlias?, finds.roots_eq]
  refine ⟨mid.andWhere c, matchSpec_of_ok translated, ?_⟩
  refine ⟨grown.select_eq.trans finds.select_eq, grown.roots_eq.trans finds.roots_eq,
    grown.joins_eq.trans finds.joins_eq, grown.order_eq.trans finds.order_eq, fun row => ?_⟩
  have bound : Binding.Holds [(name, row)] mid (fun _ => row) spec.comparisons := by
    intro leaf member other known
    rw [about leaf member, named] at known
    cases known
    simp [Dictionary.find?_cons]
  have satisfied := evaluate_translated standard translated bound (.refl _ _)
    (SpecLeaf.isSatisfiedBy · (.row row))
  rw [← Spec.isSatisfiedBy_row] at satisfied
  rw [Context.filterOn_andWhere, grown.filterOn_eq (finds.filterOn_eq row), ok_bind, satisfied]
  cases keep row <;> rfl

-- Induction on the specifications: each match narrows what the query finds by its own one.
theorem run_matches_finds (has : reg.HasStandard) (plain : ∀ spec ∈ specs, spec.IsPlain)
    (about : ∀ spec ∈ specs, ∀ c ∈ spec.comparisons, c.entity = entity)
    (finds : ctx.query.Finds entity name keep) :
    ∃ after, reg.run ctx (specs.map .matchSpec) = (List.replicate specs.length .done, after) ∧
      after.query.Finds entity name
        (fun row => keep row && specs.all fun spec => spec.isSatisfiedBy (.row row)) := by
  induction specs generalizing ctx keep with
  | nil => exact ⟨ctx, rfl, by simpa using finds⟩
  | cons spec rest ih =>
    obtain ⟨mid, matched, further⟩ :=
      matchSpec_finds has (plain spec (by simp)) (about spec (by simp)) finds
    obtain ⟨after, ran, result⟩ := ih (fun other member => plain other (by simp [member]))
      (fun other member => about other (by simp [member])) further
    refine ⟨after, ?_, by simpa [Bool.and_assoc] using result⟩
    simp only [List.map_cons, run_cons, answer_match, matched, ran]
    rfl

end Registry

/-! ### Execution -/

namespace Executor

variable {store : EntityStore} {config : ExecutorConfig} {rows : List Json} {q : Query}

theorem fromRoots_single (loaded : load store config entity = .ok rows) :
    fromRoots store config [⟨entity, name⟩] = .ok (rows.map fun row => [(name, row)]) := by
  simp only [fromRoots, List.foldlM_cons, List.foldlM_nil, loaded, ok_bind]
  simp [product, Dictionary.insert, pure, Except.pure]

theorem keepWhere_filterOn (known : ∀ row, q.filterOn name row = .ok (keep row)) :
    keepWhere q.parameters q.filter (rows.map fun row => [(name, row)]) =
      .ok ((rows.filter keep).map fun row => [(name, row)]) := by
  unfold Query.filterOn at known
  cases filter : q.filter with
  | none =>
    rw [filter] at known
    have all : rows.filter keep = rows :=
      List.filter_eq_self.2 fun row _ => (Except.ok.inj (known row)).symm
    rw [all]
    rfl
  | some c =>
    rw [filter] at known
    exact filterM_map fun row _ => known row

theorem execute_finds (finds : q.Finds entity name keep) (plain : '.' ∉ name.toList)
    (loaded : load store config entity = .ok rows) :
    execute store config q = .ok ((takeAtMost config.maxResultRows (rows.filter keep)).map
      fun row => ⟨[(name, row)]⟩) := by
  have projected : ∀ row ∈ takeAtMost config.maxResultRows (rows.filter keep),
      (project [name] ∘ fun row => [(name, row)]) row = .ok ⟨[(name, row)]⟩ := by
    intro row _
    have item : selectItem [(name, row)] name = .ok row := by
      unfold selectItem
      rw [span_of_notMem plain]
      simp [Binding.row, Dictionary.find?_cons]
    simp [project, item, pure, Except.pure]
  have rooted : ¬ [(⟨entity, name⟩ : Root)].isEmpty = true := Bool.false_ne_true
  unfold execute
  rw [finds.roots_eq, if_neg rooted, fromRoots_single loaded, ok_bind, finds.joins_eq,
    List.foldlM_nil, pure_bind, keepWhere_filterOn finds.filterOn_eq, ok_bind, finds.order_eq,
    if_pos List.isEmpty_nil, ok_bind, finds.select_eq]
  simp only [takeAtMost_map, List.mapM_map]
  exact mapM_eq_map projected

variable {Leaf Object : Type} [SpecLeaf Leaf Object] {reg : Registry Leaf}
  {specs : List (Spec Leaf)}

/-- Matching never fails, and the query then gives the rows that satisfy all the specifications,
each as often as it is stored and in the order in which it is. -/
theorem execute_matches (has : reg.HasStandard) (named : '.' ∉ name.toList)
    (plain : ∀ spec ∈ specs, spec.IsPlain)
    (about : ∀ spec ∈ specs, ∀ c ∈ spec.comparisons, c.entity = entity) :
    ∃ after, reg.run {} (.select [name] :: .addRoot entity name :: specs.map .matchSpec) =
        (List.replicate (specs.length + 2) .done, after) ∧
      ∀ (store : EntityStore) (config : ExecutorConfig) (rows : List Json),
        store.allRows entity = .ok rows → rows.length ≤ config.maxRowsPerEntity →
        execute store config after.query = .ok ((takeAtMost config.maxResultRows (rows.filter
          fun row => specs.all fun spec => spec.isSatisfiedBy (.row row))).map
            fun row => ⟨[(name, row)]⟩) := by
  have opened : ((({} : Context).select [name]).addRoot entity name).query.Finds entity name
      fun _ => true := ⟨rfl, rfl, rfl, rfl, fun _ => rfl⟩
  obtain ⟨after, ran, finds⟩ := Registry.run_matches_finds has plain about opened
  refine ⟨after, ?_, fun store config rows loaded within => ?_⟩
  · simp only [Registry.run_cons, Registry.answer, Registries.answer, ran]
    rfl
  · exact execute_finds finds named (load_eq loaded within)

open EntityStore in
/-- A number that is not less than two, and no address that equals null. -/
def laterUsers : List (Spec Marker) := [
  .not (.field ⟨user, "id", .less, .int 2, by decide⟩),
  .allOf .any [.not (.field ⟨user, "email", .equal, .null, by decide⟩)]]

open EntityStore in
theorem execute_matches_laterUsers :
    ∃ after, Registry.standard.run {}
        (.select ["u"] :: .addRoot user "u" :: laterUsers.map .matchSpec) =
          (List.replicate 4 .done, after) ∧
      execute shop {} after.query = .ok [⟨[("u", .record [("id", .number (.int 2))])]⟩] := by
  have plain : ∀ spec ∈ laterUsers, spec.IsPlain := by
    simp [laterUsers, Spec.IsPlain, Spec.nodes, Spec.nodesOfEach]
  have about : ∀ spec ∈ laterUsers, ∀ c ∈ spec.comparisons, c.entity = user := by
    simp [laterUsers]
  obtain ⟨after, ran, found⟩ :=
    execute_matches Registry.hasStandard_standard (by decide : '.' ∉ "u".toList) plain about
  exact ⟨after, ran, found shop {} _ allRows_shop.1 (by decide)⟩

end Executor

end Criteria
