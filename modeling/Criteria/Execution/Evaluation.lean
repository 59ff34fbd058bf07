import Criteria.Dictionary
import Criteria.Parameters
import Criteria.Query.Basic
import Criteria.Store.Error

/-! Evaluating conditions on rows that are bound to aliases. -/

set_option autoImplicit false

namespace Criteria

inductive ExecutionError where
  | noRoot
  | unknownAlias (name : String)
  | unknownParameter (name : String)
  | rowLimitExceeded (entity : EntityType) (max : Nat)
  | unsupportedSelect (item : String)
  | storage (cause : StorageError)
  deriving DecidableEq

def ExecutionError.message : ExecutionError → String
  | .noRoot => "query has no FROM clause"
  | .unknownAlias name => "alias '" ++ name ++ "' is not bound by any FROM or JOIN clause"
  | .unknownParameter name => "parameter ':" ++ name ++ "' is referenced but not bound"
  | .rowLimitExceeded entity max =>
    entity.name ++ " holds more than " ++ toString max ++ " rows; raise max_rows_per_entity"
  | .unsupportedSelect item => "unsupported select item '" ++ item ++ "'"
  | .storage cause => cause.message

/-- Rows by alias. A row that a LEFT JOIN did not find is null. -/
abbrev Binding := Dictionary Json

namespace Binding

def row (binding : Binding) (aliasName : String) : Except ExecutionError Json :=
  match Dictionary.find? binding aliasName with
  | some row => .ok row
  | none => .error (.unknownAlias aliasName)

/-- The value of a field, null where the row has none. -/
def field (binding : Binding) (ref : FieldRef) : Except ExecutionError Json :=
  (binding.row ref.aliasName).map fun row => (row.get? ref.field).getD .null

end Binding

def Operand.evaluate (binding : Binding) (ps : Parameters) : Operand → Except ExecutionError Json
  | .field ref => binding.field ref
  | .parameter name =>
    match ps.get? name with
    | some value => .ok value.value
    | none => .error (.unknownParameter name)

mutual
/-- Whether a condition holds. The parts of a group are looked at from left to right, and no
further than needed. -/
def Condition.evaluate (binding : Binding) (ps : Parameters) :
    Condition → Except ExecutionError Bool
  | .always => .ok true
  | .compare left op right => do
    let left ← left.evaluate binding ps
    let right ← right.evaluate binding ps
    return op.holds (left.compare? right)
  | .all parts => Condition.evaluateAll binding ps parts
  | .any parts => Condition.evaluateAny binding ps parts
  | .not part => return !(← part.evaluate binding ps)

def Condition.evaluateAll (binding : Binding) (ps : Parameters) :
    List Condition → Except ExecutionError Bool
  | [] => .ok true
  | part :: rest => do
    if ← part.evaluate binding ps then Condition.evaluateAll binding ps rest else return false

def Condition.evaluateAny (binding : Binding) (ps : Parameters) :
    List Condition → Except ExecutionError Bool
  | [] => .ok false
  | part :: rest => do
    if ← part.evaluate binding ps then return true else Condition.evaluateAny binding ps rest
end

end Criteria
