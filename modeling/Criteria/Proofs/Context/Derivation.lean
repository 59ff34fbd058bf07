import Criteria.Proofs.Context.Growth
import Criteria.Proofs.Translation.Procedure

/-!
Deriving aliases. An entity without one gets the short name in lower case and the
least number, from that of the derived aliases on, with which no clause and no other
entity has it. Over a run of calls every derived alias is spelled so.
-/

set_option autoImplicit false

namespace Criteria

namespace Context

variable {ctx : Context} {entity other : EntityType}

theorem notMem_takenAliases_iff {name : String} : name ∉ ctx.takenAliases ↔
    name ∉ ctx.query.roots.map Root.aliasName ∧ name ∉ ctx.query.joinAliases ∧
      name ∉ ctx.aliases.map Prod.snd := by
  simp only [takenAliases, Query.boundAliases, List.mem_append, not_or, and_assoc]

theorem length_takenAliases (ctx : Context) : ctx.takenAliases.length =
    ctx.query.roots.length + ctx.query.joins.length + ctx.aliases.length := by
  simp only [takenAliases, Query.boundAliases, Query.joinAliases, List.length_append,
    List.length_map]

theorem derivedAlias?_aliasFor (unknown : ctx.alias? entity = none) (other : EntityType) :
    (ctx.aliasFor entity).2.derivedAlias? other =
      if other = entity then some (ctx.aliasFor entity).1 else ctx.derivedAlias? other := by
  have underived : ctx.aliases.lookup entity = none := (Option.or_eq_none_iff.1 unknown).2
  rw [aliasFor_of_alias?_eq_none unknown]
  by_cases same : other = entity
  · simp [derivedAlias?, List.lookup_append, same, underived]
  · simp [derivedAlias?, List.lookup_append, List.lookup_cons, same, beq_false_of_ne same]

-- The clauses and the derived aliases may be any, such as those of a user who has taken the next
-- candidates on purpose, or of entities whose short names end with digits.
/-- An entity that no FROM clause names and that has no derived alias. The loop over the candidates
ends after at most one more than there are aliases; the alias is the first candidate that no clause
binds and that has not been derived; it is derived for this entity, and nothing else is changed. -/
theorem aliasFor_derives_least (ctx : Context) (entity : EntityType)
    (unnamed : ctx.query.rootAlias? entity = none)
    (underived : ctx.derivedAlias? entity = none) :
    let spelled := numberedAlias entity
    let name := (ctx.aliasFor entity).1
    let after := (ctx.aliasFor entity).2
    let derived := ctx.aliases.length
    (∃ n, ∃ tries ≤ derived + ctx.query.roots.length + ctx.query.joins.length + 1,
      Search ctx.takenAliases spelled derived tries n ∧
      name = lowercase entity.shortName ++ toString n ∧
      IsLeast {m | derived ≤ m ∧ spelled m ∉ ctx.query.roots.map Root.aliasName ∧
        spelled m ∉ ctx.query.joinAliases ∧ spelled m ∉ ctx.aliases.map Prod.snd} n) ∧
    after = { ctx with aliases := ctx.aliases ++ [(entity, name)] } ∧
    ∀ other, after.derivedAlias? other =
      if other = entity then some name else ctx.derivedAlias? other := by
  intro spelled name after derived
  have unknown : ctx.alias? entity = none := Option.or_eq_none_iff.2 ⟨unnamed, underived⟩
  have derives := aliasFor_of_alias?_eq_none unknown
  have named : name = ctx.freshAlias entity := by simp only [name, derives]
  obtain ⟨tries, bound, search⟩ :=
    exists_search ctx.takenAliases (numberedAlias_injective entity) derived
  rw [length_takenAliases] at bound
  refine ⟨⟨_, tries, by omega, search, named, ?_⟩, ?_,
    derivedAlias?_aliasFor unknown⟩
  · simpa only [notMem_takenAliases_iff] using search.isLeast
  · simp only [after, name, derives]

/-- Clauses bind the first nine candidates for orders, and the tenth was derived for `Order1`. -/
def crowded : Context :=
  let named : Context :=
    { query.roots := (List.range 8).map fun i => ⟨⟨"app.User"⟩, "order" ++ toString (i + 1)⟩
      query.joins := [⟨.left, ⟨"app.Item"⟩, "order9", none⟩] }
  (named.aliasFor ⟨"app.Order1"⟩).2

theorem aliasFor_derives_least_crowded :
    crowded.query.rootAlias? ⟨"app.Order"⟩ = none ∧
    crowded.derivedAlias? ⟨"app.Order"⟩ = none ∧
    crowded.aliases.map Prod.snd = ["order10"] ∧
    (crowded.aliasFor ⟨"app.Order"⟩).1 = "order11" ∧
    ∃ tries ≤ 11, Search crowded.takenAliases (numberedAlias ⟨"app.Order"⟩) 1 tries 11 := by
  have unnamed : crowded.query.rootAlias? ⟨"app.Order"⟩ = none := by decide +kernel
  have underived : crowded.derivedAlias? ⟨"app.Order"⟩ = none := by decide +kernel
  have tenth : crowded.aliases.map Prod.snd = ["order10"] := by decide +kernel
  have aliases : crowded.aliases.length = 1 := by decide +kernel
  have clauses : crowded.query.roots.length = 8 ∧ crowded.query.joins.length = 1 := by
    decide +kernel
  have eleventh : (crowded.aliasFor ⟨"app.Order"⟩).1 = "order11" := by decide +kernel
  obtain ⟨⟨n, tries, bound, search, name, -⟩, -⟩ :=
    aliasFor_derives_least crowded ⟨"app.Order"⟩ unnamed underived
  have spelled : "order11" = numberedAlias ⟨"app.Order"⟩ 11 := by decide +kernel
  obtain rfl : n = 11 :=
    numberedAlias_injective ⟨"app.Order"⟩ (name.symm.trans (eleventh.trans spelled))
  rw [aliases] at search
  rw [aliases, clauses.1, clauses.2] at bound
  exact ⟨unnamed, underived, tenth, eleventh, tries, bound, search⟩

/-! ### The spelling of derived aliases -/

/-- Each derived alias is the short name of its entity in lower case, with a number. -/
def Spelled (ctx : Context) : Prop :=
  ∀ entity name, (entity, name) ∈ ctx.aliases → ∃ n, name = numberedAlias entity n

theorem spelled_empty : Spelled {} :=
  nofun

theorem Spelled.aliasFor (spelled : ctx.Spelled) (entity : EntityType) :
    (ctx.aliasFor entity).2.Spelled := by
  cases known : ctx.alias? entity with
  | some name => rwa [aliasFor_of_alias? known]
  | none =>
    rw [aliasFor_of_alias?_eq_none known]
    intro other name member
    rcases List.mem_append.1 member with old | new
    · exact spelled other name old
    · cases List.mem_singleton.1 new
      exact ⟨_, rfl⟩

/-- Without a FROM clause for it an entity has a derived alias, old or new. -/
theorem Spelled.exists_number (spelled : ctx.Spelled)
    (unnamed : ctx.query.rootAlias? entity = none) :
    ∃ n, (ctx.aliasFor entity).1 = numberedAlias entity n := by
  cases derived : ctx.derivedAlias? entity with
  | some name =>
    have known : ctx.alias? entity = some name := by rw [alias?, unnamed, derived, Option.none_or]
    rw [aliasFor_of_alias? known]
    exact spelled entity name (mem_aliases_of_derivedAlias? derived)
  | none =>
    have unknown : ctx.alias? entity = none := Option.or_eq_none_iff.2 ⟨unnamed, derived⟩
    rw [aliasFor_of_alias?_eq_none unknown]
    exact ⟨_, rfl⟩

end Context

namespace Registry

variable {Leaf Object : Type} [SpecLeaf Leaf Object] {reg : Registry Leaf} {ctx after : Context}
  {log : Log Leaf} {call : Call Leaf}

theorem spelled_answer (basic : call.IsBasic) (spelled : ctx.Spelled) :
    (reg.answer ctx call).2.Spelled := by
  rcases aliasFor_or_aliases_eq basic reg ctx with ⟨entity, derived⟩ | kept
  · rw [derived]
    exact spelled.aliasFor entity
  · unfold Context.Spelled
    rwa [kept]

theorem Leads.spelled (leads : reg.Leads ctx log after) (spelled : ctx.Spelled) :
    after.Spelled := by
  induction leads with
  | nil => exact spelled
  | cons basic _ ih => exact ih (spelled_answer basic spelled)

end Registry

end Criteria
