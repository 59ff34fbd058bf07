import Criteria.Proofs.Translation.Procedure

/-!
The alias of an entity over a run of calls. It is the one that the first FROM clause
for the entity gives it, and until there is such a clause the one that was derived
for it first, whatever is added for other entities and whatever is taken back.
-/

set_option autoImplicit false

namespace Criteria

variable {Leaf Object : Type} [SpecLeaf Leaf Object] {reg : Registry Leaf} {ctx after : Context}
  {log more : Log Leaf} {call : Call Leaf} {entity : EntityType} {name : String}

/-- The aliases that FROM clauses give to an entity. -/
def Log.rootNames (log : Log Leaf) (entity : EntityType) : List String :=
  log.filterMap fun
    | (.addRoot named aliasName, _) => if named = entity then some aliasName else none
    | _ => none

theorem Log.rootNames_append : (log ++ more).rootNames entity =
    log.rootNames entity ++ more.rootNames entity := List.filterMap_append

namespace Registry

/-! ### One call -/

theorem aliases_answer (basic : call.IsBasic) (reg : Registry Leaf) (ctx : Context) :
    ctx.aliases <+: (reg.answer ctx call).2.aliases := by
  rcases aliasFor_or_aliases_eq basic reg ctx with ⟨entity, derived⟩ | kept
  · rw [derived]
    exact (ctx.extends_aliasFor entity).aliases
  · simp only [kept, List.prefix_refl]

/-- The first FROM clause for an entity decides, so that a further one changes nothing. -/
theorem rootAlias?_answer (basic : call.IsBasic) (reg : Registry Leaf) (ctx : Context)
    (entity : EntityType) : (reg.answer ctx call).2.query.rootAlias? entity =
      (ctx.query.rootAlias? entity).or
        (Log.rootNames [(call, (reg.answer ctx call).1)] entity).head? := by
  cases call with
  | addRoot named aliasName =>
    change (ctx.addRoot named aliasName).query.rootAlias? entity = _
    simp only [Context.addRoot, Query.rootAlias?, List.find?_append, Option.map_or]
    by_cases same : named = entity <;> simp [Log.rootNames, same]
  | aliasFor other | fieldOf other =>
    have kept := congrArg (Query.rootAlias? · entity) (ctx.query_aliasFor other)
    exact kept.trans (Option.or_none).symm
  | addJoin join =>
    have kept := congrArg (·.query.rootAlias? entity) (ctx.addJoin_eq join)
    exact kept.trans (Option.or_none).symm
  | query | select | addSelect | andWhere | orderBy | bindParameter | assignParameter =>
    exact (Option.or_none).symm
  | translate | matchSpec => exact basic.elim

/-! ### Runs -/

theorem Leads.aliases_prefix (leads : reg.Leads ctx log after) : ctx.aliases <+: after.aliases := by
  induction leads with
  | nil => exact List.prefix_rfl
  | cons basic _ ih => exact (aliases_answer basic _ _).trans ih

theorem Leads.rootAlias?_eq (leads : reg.Leads ctx log after) (entity : EntityType) :
    after.query.rootAlias? entity =
      (ctx.query.rootAlias? entity).or (log.rootNames entity).head? := by
  induction leads with
  | nil => exact (Option.or_none).symm
  | cons basic _ ih =>
    rw [ih, rootAlias?_answer basic, Option.or_assoc, ← List.head?_append, ← Log.rootNames_append]
    rfl

/-- An entity keeps its alias until there is a FROM clause for it. -/
theorem Leads.alias?_eq (leads : reg.Leads ctx log after) (known : ctx.alias? entity = some name)
    (unnamed : log.rootNames entity = []) : after.alias? entity = some name := by
  have sameRoot := leads.rootAlias?_eq entity
  rw [unnamed, List.head?_nil, Option.or_none] at sameRoot
  unfold Context.alias? at known ⊢
  rw [sameRoot]
  cases root : ctx.query.rootAlias? entity with
  | some found => rwa [root] at known
  | none =>
    rw [root, Option.none_or] at known
    exact List.IsPrefix.lookup_eq_some leads.aliases_prefix known

/-- The alias of an entity is asked for after some calls, and again after some later ones. If the
later ones have put no FROM clause for the entity into the query, the answer is the same; and if
there are such clauses, among those calls or before them, it is the alias of the first one. Clauses
that were taken back with a match that failed count for nothing. -/
theorem aliasFor_stable (procs : reg.Procedures) (entity : EntityType)
    (calls later : List (Call Leaf)) :
    let ctx := (reg.run {} calls).2
    let asked := reg.answer ctx (.aliasFor entity)
    let ended := (reg.run asked.2 later).2
    let before := procs.log {} calls
    let since := procs.log asked.2 later
    (since.rootNames entity = [] → (reg.answer ended (.aliasFor entity)).1 = asked.1) ∧
    ∀ name, ((before ++ since).rootNames entity).head? = some name →
      (reg.answer ended (.aliasFor entity)).1 = .name name := by
  intro ctx asked ended before since
  have opened : reg.Leads {} before ctx := procs.leads_run {} calls
  have went : reg.Leads asked.2 since ended := procs.leads_run asked.2 later
  have answers : ∀ {name}, ended.alias? entity = some name →
      (reg.answer ended (.aliasFor entity)).1 = .name name := by
    intro name known
    exact congrArg (Answer.name ·.1) (Context.aliasFor_of_alias? known)
  constructor
  · intro unnamed
    exact answers (went.alias?_eq (ctx.alias?_aliasFor entity) unnamed)
  · intro name first
    have root : ended.query.rootAlias? entity = some name := by
      have sameQuery : asked.2.query = ctx.query := ctx.query_aliasFor entity
      rw [went.rootAlias?_eq, sameQuery, opened.rootAlias?_eq, Option.or_assoc, ← List.head?_append,
        ← Log.rootNames_append, first]
      rfl
    exact answers (by rw [Context.alias?, root, Option.some_or])

/-- A match that adds a FROM clause for orders, and then fails. -/
def retracted : Call Marker :=
  .matchSpec (.allOf (.leaf ⟨"meddled"⟩) [.leaf ⟨"unknown"⟩])

/-- The FROM clause counts when the match succeeds, and the one after it comes too late. -/
theorem aliasFor_stable_orders :
    let asked := meddled.answer (meddled.run {} [retracted]).2 (.aliasFor ⟨"app.Order"⟩)
    let others := [.aliasFor ⟨"other.Order"⟩, .addRoot ⟨"app.User"⟩ "u", retracted]
    let named := others ++ [.matchSpec (.leaf ⟨"meddled"⟩), .addRoot ⟨"app.Order"⟩ "p"]
    asked.1 = .name "order0" ∧
    (meddled.answer (meddled.run asked.2 others).2 (.aliasFor ⟨"app.Order"⟩)).1 =
      .name "order0" ∧
    (meddled.answer (meddled.run asked.2 named).2 (.aliasFor ⟨"app.Order"⟩)).1 = .name "o" := by
  intro asked others named
  have kept := (aliasFor_stable meddledProcedures ⟨"app.Order"⟩ [retracted] others).1
  have decided := (aliasFor_stable meddledProcedures ⟨"app.Order"⟩ [retracted] named).2
  exact ⟨rfl, kept rfl, decided "o" rfl⟩

end Registry

end Criteria
