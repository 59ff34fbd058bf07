import Criteria.Json.Tree

/-! Comparing scalars: within a kind by its order, and not at all across kinds. -/

set_option autoImplicit false

namespace Criteria.JsonTree

/-- The order of two scalars of one kind. Nulls, lists and records have none. -/
def compare? : Json → Json → Option Ordering
  | .text a, .text b => some (compare a b)
  | .bool a, .bool b => some (compare a b)
  | .number a, .number b => a.compare? b
  | _, _ => none

def isNull : Json → Bool
  | .null => true
  | _ => false

/-- The order of sort keys: null first, and values that do not compare are equal. -/
def sortOrder (a b : Json) : Ordering :=
  match a.isNull, b.isNull with
  | true, true => .eq
  | true, false => .lt
  | false, true => .gt
  | false, false => (a.compare? b).getD .eq

end Criteria.JsonTree
