import Criteria.Context
import Criteria.Proofs.Parameters
import Criteria.Spec.Basic

/-!
How a context grows while field comparisons are added to it. An entity that has
an alias keeps it, a parameter keeps its value, and the clauses of the query
stay as they are.
-/

set_option autoImplicit false

namespace Criteria

namespace Context

/-- The alias that an entity has already. -/
def alias? (ctx : Context) (entity : EntityType) : Option String :=
  (ctx.query.rootAlias? entity).or (ctx.derivedAlias? entity)

variable {ctx before after first second third : Context} {entity : EntityType} {name : String}

theorem aliasFor_of_alias? (known : ctx.alias? entity = some name) :
    ctx.aliasFor entity = (name, ctx) := by
  unfold alias? at known
  unfold aliasFor
  cases root : ctx.query.rootAlias? entity with
  | some found => simp_all
  | none =>
    rw [root, Option.none_or] at known
    simp [known]

theorem aliasFor_of_alias?_eq_none (unknown : ctx.alias? entity = none) :
    ctx.aliasFor entity =
      (ctx.freshAlias entity,
        { ctx with aliases := ctx.aliases ++ [(entity, ctx.freshAlias entity)] }) := by
  obtain ⟨root, derived⟩ := Option.or_eq_none_iff.1 unknown
  simp [aliasFor, root, derived]

theorem query_aliasFor (ctx : Context) (entity : EntityType) :
    (ctx.aliasFor entity).2.query = ctx.query := by
  cases known : ctx.alias? entity with
  | some name => rw [aliasFor_of_alias? known]
  | none => rw [aliasFor_of_alias?_eq_none known]

theorem alias?_aliasFor (ctx : Context) (entity : EntityType) :
    (ctx.aliasFor entity).2.alias? entity = some (ctx.aliasFor entity).1 := by
  cases known : ctx.alias? entity with
  | some name => rwa [aliasFor_of_alias? known]
  | none =>
    obtain ⟨root, derived⟩ := Option.or_eq_none_iff.1 known
    have absent : ctx.aliases.lookup entity = none := derived
    rw [aliasFor_of_alias?_eq_none known]
    simp [alias?, root, derivedAlias?, List.lookup_append, absent]

theorem mem_aliases_of_derivedAlias? (derived : ctx.derivedAlias? entity = some name) :
    (entity, name) ∈ ctx.aliases := by
  obtain ⟨before, later, entries, -⟩ := List.lookup_eq_some_iff.1 derived
  simp [entries]

/-- Nothing but the joins is changed. -/
theorem addJoin_eq (ctx : Context) (join : Join) :
    ctx.addJoin join = { ctx with query.joins := (ctx.addJoin join).query.joins } := by
  unfold addJoin
  split <;> rfl

theorem numberedAlias_injective (entity : EntityType) :
    Function.Injective (numberedAlias entity) := by
  intro m n same
  have digits : (toString m).toList = (toString n).toList := by
    have chars := congrArg String.toList same
    simpa only [numberedAlias, String.toList_append, List.append_cancel_left_eq] using chars
  rw [Nat.toString_eq_ofList_toDigits, Nat.toString_eq_ofList_toDigits, String.toList_ofList,
    String.toList_ofList] at digits
  have numbers := congrArg (fun cs => Nat.ofDigitChars 10 cs 0) digits
  simpa using numbers

/-- A derived alias is none of those that the clauses bind or that have been derived before. -/
theorem freshAlias_notMem (ctx : Context) (entity : EntityType) :
    ctx.freshAlias entity ∉ ctx.takenAliases :=
  firstFree_notMem (numberedAlias_injective entity) ctx.aliases.length

/-! ### Growth -/

-- A context that is put back to an earlier one has not grown, so this is not about every call: it
-- is about translations, which may fail half-way and leave what they have added.
/-- Only derived aliases and parameters have come to the context, each after those it had. -/
structure Extends (before after : Context) : Prop where
  registry_eq : after.registry = before.registry
  select_eq : after.query.select = before.query.select
  roots_eq : after.query.roots = before.query.roots
  joins_eq : after.query.joins = before.query.joins
  filter_eq : after.query.filter = before.query.filter
  order_eq : after.query.order = before.query.order
  parameters : before.query.parameters.entries <+: after.query.parameters.entries
  aliases : before.aliases <+: after.aliases

namespace Extends

theorem refl (ctx : Context) : ctx.Extends ctx :=
  ⟨rfl, rfl, rfl, rfl, rfl, rfl, List.prefix_refl _, List.prefix_refl _⟩

theorem trans (early : first.Extends second) (late : second.Extends third) :
    first.Extends third where
  registry_eq := late.registry_eq.trans early.registry_eq
  select_eq := late.select_eq.trans early.select_eq
  roots_eq := late.roots_eq.trans early.roots_eq
  joins_eq := late.joins_eq.trans early.joins_eq
  filter_eq := late.filter_eq.trans early.filter_eq
  order_eq := late.order_eq.trans early.order_eq
  parameters := early.parameters.trans late.parameters
  aliases := early.aliases.trans late.aliases

theorem derivedAlias?_eq (grown : before.Extends after)
    (derived : before.derivedAlias? entity = some name) : after.derivedAlias? entity = some name :=
  List.IsPrefix.lookup_eq_some grown.aliases derived

theorem alias?_eq (grown : before.Extends after) (known : before.alias? entity = some name) :
    after.alias? entity = some name := by
  -- the FROM clause decides first, and it has not changed
  have sameRoot : after.query.rootAlias? entity = before.query.rootAlias? entity := by
    simp only [Query.rootAlias?, grown.roots_eq]
  unfold alias? at known ⊢
  rw [sameRoot]
  cases root : before.query.rootAlias? entity with
  | some found => rwa [root] at known
  | none =>
    rw [root, Option.none_or] at known
    rw [Option.none_or]
    exact grown.derivedAlias?_eq known

theorem keptOn (grown : before.Extends after) (names : List String) :
    Parameters.KeptOn names before.query.parameters after.query.parameters :=
  .of_entries grown.parameters

end Extends

theorem extends_aliasFor (ctx : Context) (entity : EntityType) :
    ctx.Extends (ctx.aliasFor entity).2 := by
  cases known : ctx.alias? entity with
  | some name =>
    rw [aliasFor_of_alias? known]
    exact .refl ctx
  | none =>
    rw [aliasFor_of_alias?_eq_none known]
    exact ⟨rfl, rfl, rfl, rfl, rfl, rfl, List.prefix_refl _, List.prefix_append _ _⟩

theorem extends_bindParameter (ctx : Context) (hint : String) (value : Literal) :
    ctx.Extends (ctx.bindParameter hint value).2 :=
  ⟨rfl, rfl, rfl, rfl, rfl, rfl, Parameters.prefix_bind _ _ _, List.prefix_refl _⟩

/-! ### Adding field comparisons -/

/-- The context with the alias and the parameter that a field comparison needs. -/
def addComparison (ctx : Context) (c : FieldCompare) : Context :=
  ((ctx.aliasFor c.entity).2.bindParameter c.field c.value).2

def addComparisons (ctx : Context) (cs : List FieldCompare) : Context :=
  cs.foldl addComparison ctx

theorem addComparisons_append (ctx : Context) (cs more : List FieldCompare) :
    ctx.addComparisons (cs ++ more) = (ctx.addComparisons cs).addComparisons more :=
  List.foldl_append

variable (c : FieldCompare)

theorem extends_addComparison : ctx.Extends (ctx.addComparison c) :=
  (extends_aliasFor ctx c.entity).trans (extends_bindParameter _ _ _)

theorem extends_addComparisons (cs : List FieldCompare) : ctx.Extends (ctx.addComparisons cs) := by
  induction cs generalizing ctx with
  | nil => exact .refl ctx
  | cons c rest ih => exact (extends_addComparison c).trans ih

/-- The alias that a comparison is about when it is added. -/
theorem alias?_addComparison :
    (ctx.addComparison c).alias? c.entity = some (ctx.aliasFor c.entity).1 :=
  (extends_bindParameter _ _ _).alias?_eq (alias?_aliasFor ctx c.entity)

/-- Deriving an alias leaves the parameters alone. -/
theorem parameters_aliasFor (ctx : Context) (entity : EntityType) :
    (ctx.aliasFor entity).2.query.parameters = ctx.query.parameters :=
  congrArg Query.parameters (ctx.query_aliasFor entity)

/-- The name that a comparison's value is bound to when it is added. -/
theorem get?_addComparison :
    (ctx.addComparison c).query.parameters.get? (ctx.query.parameters.freshName c.field) =
      some c.value := by
  unfold addComparison bindParameter
  rw [parameters_aliasFor]
  exact Parameters.get?_bind_self c.field c.value

end Context

end Criteria
