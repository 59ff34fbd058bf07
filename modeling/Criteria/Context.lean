import Criteria.Query.Basic
import Criteria.Text.Basic
import Criteria.Text.Lowercase

/-! The query under construction, the aliases derived for the entities it mentions, and the registry
that its specifications are translated by. -/

set_option autoImplicit false

namespace Criteria

structure Context where
  /-- The registry that the context refers to. If handlers have a state of their own, each state of
  a registry has a number of its own. -/
  registry : Nat := 0
  /-- The derived aliases, in the order in which they were derived. -/
  aliases : List (EntityType × String) := []
  query : Query := {}

namespace Context

def derivedAlias? (ctx : Context) (entity : EntityType) : Option String :=
  ctx.aliases.lookup entity

/-- The aliases that a further one must differ from. -/
def takenAliases (ctx : Context) : List String :=
  ctx.query.boundAliases ++ ctx.aliases.map Prod.snd

def numberedAlias (entity : EntityType) (n : Nat) : String :=
  lowercase entity.shortName ++ toString n

/-- The alias that is derived for an entity without one: the first free number, from the number
of derived aliases on. -/
def freshAlias (ctx : Context) (entity : EntityType) : String :=
  numberedAlias entity (firstFree ctx.takenAliases (numberedAlias entity) ctx.aliases.length)

/-- The alias of an entity: that of the FROM clause, else the one derived before, else a fresh
one. -/
def aliasFor (ctx : Context) (entity : EntityType) : String × Context :=
  match ctx.query.rootAlias? entity with
  | some name => (name, ctx)
  | none =>
    match ctx.derivedAlias? entity with
    | some name => (name, ctx)
    | none =>
      let name := ctx.freshAlias entity
      (name, { ctx with aliases := ctx.aliases ++ [(entity, name)] })

def fieldOf (ctx : Context) (entity : EntityType) (field : String) : FieldRef × Context :=
  let (name, ctx) := ctx.aliasFor entity
  (⟨name, field⟩, ctx)

def select (ctx : Context) (items : List String) : Context :=
  { ctx with query.select := items }

def addSelect (ctx : Context) (item : String) : Context :=
  { ctx with query.select := ctx.query.select ++ [item] }

def addRoot (ctx : Context) (entity : EntityType) (aliasName : String) : Context :=
  { ctx with query.roots := ctx.query.roots ++ [⟨entity, aliasName⟩] }

/-- Adds a join, unless there is one with its alias. -/
def addJoin (ctx : Context) (join : Join) : Context :=
  if join.aliasName ∈ ctx.query.joinAliases then ctx
  else { ctx with query.joins := ctx.query.joins ++ [join] }

/-- Narrows the filter by a further condition. -/
def andWhere (ctx : Context) (condition : Condition) : Context :=
  { ctx with query.filter := some (match ctx.query.filter with
    | none => condition
    | some existing => existing.andAlso condition) }

def orderBy (ctx : Context) (key : SortKey) : Context :=
  { ctx with query.order := ctx.query.order ++ [key] }

def bindParameter (ctx : Context) (hint : String) (value : Literal) : String × Context :=
  let (name, parameters) := ctx.query.parameters.bind hint value
  (name, { ctx with query.parameters := parameters })

def assignParameter (ctx : Context) (name : String) (value : Literal) : Context :=
  { ctx with query.parameters := ctx.query.parameters.assign name value }

end Context

end Criteria
