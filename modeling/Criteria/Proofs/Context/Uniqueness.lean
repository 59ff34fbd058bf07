import Criteria.Proofs.FirstOfEach
import Criteria.Proofs.Translation.Procedure

/-!
What a context holds by the calls that made it. The parameters have distinct names
and the values that were bound or assigned last; the joins have distinct aliases and
are those asked for first; no two entities have the same derived alias. Calls that a
failed match has taken back do not count, whichever handlers made them.
-/

set_option autoImplicit false

namespace Criteria

/-! ### Parameters by the values bound and assigned -/

namespace Parameters

variable {ps : Parameters} {bindings : List (String × Literal)}

/-- Every name stands once, for the value that came last for it. -/
structure Holds (ps : Parameters) (bindings : List (String × Literal)) : Prop where
  names_nodup : ps.names.Nodup
  get?_eq : ∀ name, ps.get? name = bindings.reverse.lookup name

theorem latest_append_singleton (name other : String) (value : Literal) :
    (bindings ++ [(name, value)]).reverse.lookup other =
      if other = name then some value else bindings.reverse.lookup other := by
  by_cases same : other = name
  · simp [same]
  · simp [List.lookup_cons, beq_false_of_ne same, same]

theorem Holds.bind (holds : ps.Holds bindings) (hint : String) (value : Literal) :
    (ps.bind hint value).2.Holds (bindings ++ [(ps.freshName hint, value)]) where
  names_nodup := by
    rw [names_bind, ← List.concat_eq_append]
    exact holds.names_nodup.concat (ps.freshName_notMem hint)
  get?_eq name := by rw [get?_bind, latest_append_singleton, holds.get?_eq]

theorem Holds.assign (holds : ps.Holds bindings) (name : String) (value : Literal) :
    (ps.assign name value).Holds (bindings ++ [(name, value)]) where
  names_nodup := by
    rw [names_assign]
    split
    · exact holds.names_nodup
    · next absent =>
      rw [← List.concat_eq_append]
      exact holds.names_nodup.concat absent
  get?_eq other := by rw [get?_assign, latest_append_singleton, holds.get?_eq]

end Parameters

/-! ### Aliases -/

namespace Context

variable {ctx : Context} {entity other : EntityType} {name : String}

/-- No entity has two derived aliases, and no alias is derived for two entities. -/
structure Distinct (ctx : Context) : Prop where
  entities_nodup : (ctx.aliases.map Prod.fst).Nodup
  names_nodup : (ctx.aliases.map Prod.snd).Nodup

theorem Distinct.aliasFor (distinct : ctx.Distinct) (entity : EntityType) :
    (ctx.aliasFor entity).2.Distinct := by
  cases known : ctx.alias? entity with
  | some name => rwa [aliasFor_of_alias? known]
  | none =>
    have underived : entity ∉ ctx.aliases.map Prod.fst := by
      have absent : ctx.aliases.lookup entity = none := (Option.or_eq_none_iff.1 known).2
      rw [List.lookup_eq_none_iff] at absent
      intro member
      obtain ⟨entry, inside, rfl⟩ := List.mem_map.1 member
      simpa using absent entry inside
    have free : ctx.freshAlias entity ∉ ctx.aliases.map Prod.snd :=
      fun taken => ctx.freshAlias_notMem entity (List.mem_append_right _ taken)
    rw [aliasFor_of_alias?_eq_none known]
    constructor
    · rw [List.map_append, List.map_singleton, ← List.concat_eq_append]
      exact distinct.entities_nodup.concat underived
    · rw [List.map_append, List.map_singleton, ← List.concat_eq_append]
      exact distinct.names_nodup.concat free

theorem Distinct.entity_eq (distinct : ctx.Distinct) (one : ctx.derivedAlias? entity = some name)
    (two : ctx.derivedAlias? other = some name) : entity = other :=
  congrArg Prod.fst (List.inj_on_of_nodup_map distinct.names_nodup
    (mem_aliases_of_derivedAlias? one) (mem_aliases_of_derivedAlias? two) rfl)

end Context

/-! ### Logs -/

variable {Leaf Object : Type} [SpecLeaf Leaf Object] {reg : Registry Leaf} {ctx after : Context}
  {log more : Log Leaf} {call : Call Leaf}

namespace Log

/-- The joins asked for, whether they were added or not. -/
def joins (log : Log Leaf) : List Join :=
  log.filterMap fun
    | (.addJoin join, _) => some join
    | _ => none

/-- The values bound, each under the name that was the answer, and the values assigned. -/
def bindings (log : Log Leaf) : List (String × Literal) :=
  log.filterMap fun
    | (.bindParameter _ value, .name name) => some (name, value)
    | (.assignParameter name value, _) => some (name, value)
    | _ => none

theorem joins_append : (log ++ more).joins = log.joins ++ more.joins := List.filterMap_append

theorem bindings_append : (log ++ more).bindings = log.bindings ++ more.bindings :=
  List.filterMap_append

end Log

/-! ### Calls -/

namespace Registry

theorem parameters_answer (basic : call.IsBasic)
    (holds : ctx.query.parameters.Holds log.bindings) :
    (reg.answer ctx call).2.query.parameters.Holds
      (log ++ [(call, (reg.answer ctx call).1)]).bindings := by
  rw [Log.bindings_append]
  cases call with
  | bindParameter hint value => exact holds.bind hint value
  | assignParameter name value => exact holds.assign name value
  | aliasFor entity | fieldOf entity =>
    have kept := ctx.parameters_aliasFor entity
    simpa [answer, Registries.answer, Context.fieldOf, kept, Log.bindings] using holds
  | addJoin join =>
    have kept := congrArg (·.query.parameters) (ctx.addJoin_eq join)
    simpa [answer, Registries.answer, kept, Log.bindings] using holds
  | query | select | addSelect | addRoot | andWhere | orderBy =>
    exact (List.append_nil log.bindings).symm ▸ holds
  | translate | matchSpec => exact basic.elim

/-- A join is added unless one with its alias has been asked for before. -/
theorem joins_answer (basic : call.IsBasic)
    (joins : ctx.query.joins = firstOfEach Join.aliasName log.joins) :
    (reg.answer ctx call).2.query.joins = firstOfEach Join.aliasName
      (log ++ [(call, (reg.answer ctx call).1)]).joins := by
  rw [Log.joins_append]
  cases call with
  | addJoin join =>
    have taken : join.aliasName ∈ ctx.query.joinAliases ↔
        join.aliasName ∈ log.joins.map Join.aliasName := by
      rw [Query.joinAliases, joins, mem_map_firstOfEach]
    change (ctx.addJoin join).query.joins = firstOfEach Join.aliasName (log.joins ++ [join])
    rw [firstOfEach_append_singleton, ← joins, Context.addJoin]
    simp only [taken]
    split <;> rfl
  | aliasFor entity | fieldOf entity =>
    have kept := congrArg Query.joins (ctx.query_aliasFor entity)
    simpa [answer, Registries.answer, Context.fieldOf, kept, Log.joins] using joins
  | query | select | addSelect | addRoot | andWhere | orderBy | bindParameter | assignParameter =>
    exact (List.append_nil log.joins).symm ▸ joins
  | translate | matchSpec => exact basic.elim

theorem distinct_answer (basic : call.IsBasic) (distinct : ctx.Distinct) :
    (reg.answer ctx call).2.Distinct := by
  rcases aliasFor_or_aliases_eq basic reg ctx with ⟨entity, derived⟩ | kept
  · rw [derived]
    exact distinct.aliasFor entity
  · constructor <;> rw [kept]
    · exact distinct.entities_nodup
    · exact distinct.names_nodup

end Registry

/-- The context holds what these calls have put into it, and nothing else. -/
structure Context.MadeBy (ctx : Context) (log : Log Leaf) : Prop where
  parameters : ctx.query.parameters.Holds log.bindings
  joins_eq : ctx.query.joins = firstOfEach Join.aliasName log.joins
  distinct : ctx.Distinct

namespace Registry

theorem Leads.madeBy (leads : reg.Leads ctx more after) (made : ctx.MadeBy log) :
    after.MadeBy (log ++ more) := by
  induction leads generalizing log with
  | nil => rwa [List.append_nil]
  | cons basic _ ih =>
    rw [List.append_cons]
    exact ih ⟨parameters_answer basic made.parameters, joins_answer basic made.joins_eq,
      distinct_answer basic made.distinct⟩

/-- Whatever calls have been made on a context, and whatever procedures the handlers are: the
parameters have distinct names, and each has the value that was bound or assigned last under its
name; the joins have distinct aliases, and are, in order, the first ones asked for with each alias;
and entities that have derived aliases have different ones. Calls that were taken back with a match
that failed count for nothing. -/
theorem run_unique (procs : reg.Procedures) (calls : List (Call Leaf)) :
    let ctx := (reg.run {} calls).2
    let log := procs.log {} calls
    ctx.query.parameters.names.Nodup ∧
    (∀ name, ctx.query.parameters.get? name = log.bindings.reverse.lookup name) ∧
    ctx.query.joinAliases.Nodup ∧
    ctx.query.joins = firstOfEach Join.aliasName log.joins ∧
    ∀ entity other name, ctx.derivedAlias? entity = some name →
      ctx.derivedAlias? other = some name → entity = other := by
  intro ctx log
  have opened : ({} : Context).MadeBy ([] : Log Leaf) :=
    ⟨⟨List.nodup_nil, fun _ => rfl⟩, rfl, ⟨List.nodup_nil, List.nodup_nil⟩⟩
  have made : ctx.MadeBy log := (procs.leads_run {} calls).madeBy opened
  refine ⟨made.parameters.names_nodup, made.parameters.get?_eq, ?_, made.joins_eq, ?_⟩
  · rw [Query.joinAliases, made.joins_eq]
    exact nodup_map_firstOfEach _ _
  · intro entity other name one two
    exact made.distinct.entity_eq one two

/-- Names and aliases that clash with those of a handler, whose first match fails. -/
def clashes : List (Call Marker) :=
  [.addJoin ⟨.inner, ⟨"app.Visit"⟩, "v", none⟩, .assignParameter "limit_1" (.int 7),
    .aliasFor ⟨"app.User"⟩, .matchSpec (.allOf (.leaf ⟨"meddled"⟩) [.leaf ⟨"unknown"⟩]),
    .matchSpec (.leaf ⟨"meddled"⟩), .addJoin ⟨.left, ⟨"app.Item"⟩, "v", some .always⟩,
    .assignParameter "limit_2" (.int 3), .aliasFor ⟨"other.User"⟩]

theorem run_unique_clashes :
    let ctx := (meddled.run {} clashes).2
    ctx.query.parameters.get? "limit_1" = some (.int 7) ∧
    ctx.query.parameters.get? "limit_2" = some (.int 3) ∧
    ctx.query.joins =
      [⟨.inner, ⟨"app.Visit"⟩, "v", none⟩, ⟨.left, ⟨"app.User"⟩, "u", none⟩] ∧
    ctx.derivedAlias? ⟨"app.User"⟩ = some "user0" ∧
    ctx.derivedAlias? ⟨"other.User"⟩ = some "user1" ∧
    ctx.derivedAlias? ⟨"app.Visit"⟩ ≠ some "user0" := by
  intro ctx
  obtain ⟨-, values, -, joins, distinct⟩ := run_unique meddledProcedures clashes
  have derived : ctx.derivedAlias? ⟨"app.User"⟩ = some "user0" := rfl
  refine ⟨(values "limit_1").trans rfl, (values "limit_2").trans rfl, joins.trans rfl, derived,
    rfl, fun visit => ?_⟩
  have same := distinct ⟨"app.User"⟩ ⟨"app.Visit"⟩ "user0" derived visit
  simp at same

end Registry

end Criteria
