import Criteria.Condition.Basic
import Criteria.Entity
import Criteria.Parameters

/-! Queries over aliased entities. -/

set_option autoImplicit false

namespace Criteria

/-- An entity of the FROM clause. -/
structure Root where
  entity : EntityType
  aliasName : String
  deriving DecidableEq

inductive JoinKind where
  | inner
  | left
  deriving DecidableEq

def JoinKind.text : JoinKind → String
  | .inner => "INNER JOIN"
  | .left => "LEFT JOIN"

structure Join where
  kind : JoinKind
  entity : EntityType
  aliasName : String
  condition : Option Condition

inductive Direction where
  | ascending
  | descending
  deriving DecidableEq

def Direction.text : Direction → String
  | .ascending => "ASC"
  | .descending => "DESC"

structure SortKey where
  field : FieldRef
  direction : Direction
  deriving DecidableEq

structure Query where
  /-- Each item is an alias, for a whole row, or an alias, a point and a field. -/
  select : List String := []
  roots : List Root := []
  joins : List Join := []
  filter : Option Condition := none
  order : List SortKey := []
  parameters : Parameters := {}

namespace Query

/-- The alias under which the FROM clause first names an entity. -/
def rootAlias? (q : Query) (entity : EntityType) : Option String :=
  (q.roots.find? fun root => root.entity = entity).map Root.aliasName

def joinAliases (q : Query) : List String :=
  q.joins.map Join.aliasName

/-- The aliases that the FROM and JOIN clauses bind. -/
def boundAliases (q : Query) : List String :=
  q.roots.map Root.aliasName ++ q.joinAliases

/-- A clause that begins with a keyword, and nothing when it has no items. -/
def listClause (keyword : String) : List String → String
  | [] => ""
  | items => keyword ++ ", ".intercalate items

def joinText (join : Join) : String :=
  " " ++ join.kind.text ++ " " ++ join.entity.name ++ " " ++ join.aliasName ++
    (match join.condition with
      | none => ""
      | some condition => " ON " ++ condition.clauseText)

/-- The query as text, with parameters by name. -/
def text (q : Query) : String :=
  "SELECT" ++ listClause " " q.select ++
    listClause " FROM " (q.roots.map fun root => root.entity.name ++ " " ++ root.aliasName) ++
    String.join (q.joins.map joinText) ++
    (match q.filter with
      | none => ""
      | some condition => " WHERE " ++ condition.clauseText) ++
    listClause " ORDER BY " (q.order.map fun key => key.field.text ++ " " ++ key.direction.text)

end Query

end Criteria
