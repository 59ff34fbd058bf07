import Criteria.Execution.Config
import Criteria.Execution.Evaluation
import Criteria.Execution.Sorting
import Criteria.Store.EntityStore

/-!
Executing queries: FROM as a product, each JOIN by nested loops, then the
filter, the order, the limit and the projection.
-/

set_option autoImplicit false

namespace Criteria

structure ResultRow where
  columns : List (String × Json)

namespace ResultRow

def size (row : ResultRow) : Nat :=
  row.columns.length

def get? (row : ResultRow) (column : String) : Option Json :=
  row.columns.lookup column

/-- A column decoded as a type; nothing if the row does not have it. A value that is already in
memory may nest as deeply as it does. -/
def getAs? {α : Type} (decoder : Decoder α) (row : ResultRow) (column : String) :
    Except StorageError (Option α) :=
  match row.get? column with
  | none => .ok none
  | some value =>
    match decoder (value.depth + 1) value.toDocument with
    | some decoded => .ok (some decoded)
    | none => .error (.serialization ("column '" ++ column ++ "': not a value of the type"))

end ResultRow

namespace Executor

/-- All rows of an entity. -/
def load (store : EntityStore) (config : ExecutorConfig) (entity : EntityType) :
    Except ExecutionError (List Json) :=
  match store.rows entity config.rowsToLoad with
  | .error e => .error (.storage e)
  | .ok rows =>
    if config.maxRowsPerEntity < rows.length then
      .error (.rowLimitExceeded entity config.maxRowsPerEntity)
    else .ok rows

/-- Every binding with every row, the rows of one binding together. -/
def product (bindings : List Binding) (aliasName : String) (rows : List Json) : List Binding :=
  bindings.flatMap fun binding => rows.map fun row => Dictionary.insert aliasName row binding

def fromRoots (store : EntityStore) (config : ExecutorConfig) (roots : List Root) :
    Except ExecutionError (List Binding) :=
  roots.foldlM (fun bindings root => do
    return product bindings root.aliasName (← load store config root.entity)) [[]]

/-- The bindings on which a condition holds. -/
def keepWhere (ps : Parameters) (condition : Option Condition) (bindings : List Binding) :
    Except ExecutionError (List Binding) :=
  match condition with
  | none => .ok bindings
  | some condition => bindings.filterM (condition.evaluate · ps)

/-- A binding with each row that the join condition holds on; in a LEFT JOIN with null when there
is no such row. -/
def joinRows (ps : Parameters) (join : Join) (rows : List Json) (binding : Binding) :
    Except ExecutionError (List Binding) := do
  let joined ← keepWhere ps join.condition
    (rows.map fun row => Dictionary.insert join.aliasName row binding)
  if joined.isEmpty && join.kind = .left then
    return [Dictionary.insert join.aliasName .null binding]
  else return joined

def applyJoin (store : EntityStore) (config : ExecutorConfig) (ps : Parameters)
    (bindings : List Binding) (join : Join) : Except ExecutionError (List Binding) := do
  let rows ← load store config join.entity
  return (← bindings.mapM (joinRows ps join rows)).flatten

/-- The order of two rows of sort values: the first key on which they differ decides. -/
def compareKeys : List Direction → List Json → List Json → Ordering
  | direction :: directions, a :: as, b :: bs =>
    let ordering := a.sortOrder b
    (match direction with
      | .ascending => ordering
      | .descending => ordering.swap).then (compareKeys directions as bs)
  | _, _, _ => .eq

def sortValues (order : List SortKey) (binding : Binding) : Except ExecutionError (List Json) :=
  order.mapM fun key => binding.field key.field

/-- Sorts by the keys; bindings that agree on all of them stay in order. -/
def sortBindings (order : List SortKey) (bindings : List Binding) :
    Except ExecutionError (List Binding) := do
  let keyed ← bindings.mapM fun binding => do return (← sortValues order binding, binding)
  let directions := order.map SortKey.direction
  return (Sorting.sort (fun a b => compareKeys directions a.1 b.1) keyed).map Prod.snd

/-- The value of a select item: a row by its alias, or a field by alias, point and field. -/
def selectItem (binding : Binding) (item : String) : Except ExecutionError Json :=
  match item.toList.span (· != '.') with
  | (_, []) => binding.row item
  | (aliasName, _ :: field) =>
    if aliasName.isEmpty || field.isEmpty || field.contains '.' then
      .error (.unsupportedSelect item)
    else binding.field ⟨String.ofList aliasName, String.ofList field⟩

/-- The selected columns of a binding; all its rows when nothing is selected. -/
def project (select : List String) (binding : Binding) : Except ExecutionError ResultRow :=
  match select with
  | [] => .ok ⟨binding⟩
  | items => do return ⟨← items.mapM fun item => do return (item, ← selectItem binding item)⟩

def takeAtMost {α : Type} (limit : Option Nat) (items : List α) : List α :=
  match limit with
  | none => items
  | some n => items.take n

def execute (store : EntityStore) (config : ExecutorConfig) (q : Query) :
    Except ExecutionError (List ResultRow) :=
  if q.roots.isEmpty then .error .noRoot
  else do
    let bindings ← fromRoots store config q.roots
    let bindings ← q.joins.foldlM (applyJoin store config q.parameters) bindings
    let bindings ← keepWhere q.parameters q.filter bindings
    let bindings ← if q.order.isEmpty then .ok bindings else sortBindings q.order bindings
    (takeAtMost config.maxResultRows bindings).mapM (project q.select)

end Executor

end Criteria
