import Criteria.Condition.Basic
import Criteria.Entity
import Criteria.Literal
import Criteria.Text.Basic

/-!
Specifications: trees of logical combinators over criteria on one candidate.

Comparing a field with a literal is built in; all further criteria are leaves
of a type that the user of the library supplies.
-/

set_option autoImplicit false

namespace Criteria

/-- What a specification is judged on: a row, or another object that leaves may know. -/
inductive Candidate (Object : Type) where
  | row (value : Json)
  | object (value : Object)

/-- The kinds of a type of leaves, and which candidates satisfy a leaf. -/
class SpecLeaf (Leaf : Type) (Object : outParam Type) where
  typeName : Leaf → String
  isSatisfiedBy : Leaf → Candidate Object → Bool

inductive SpecError where
  | emptyComposite (kind : String)
  | invalidIdentifier (name : String)
  deriving DecidableEq

def SpecError.message : SpecError → String
  | .emptyComposite kind => kind ++ " requires at least one nested specification"
  | .invalidIdentifier name => "'" ++ name ++ "' is not a valid field identifier"

/-- A comparison of one field with a literal. The field may stand in a condition unquoted. -/
structure FieldCompare where
  entity : EntityType
  field : String
  op : Comparison
  value : Literal
  isIdentifier_field : isIdentifier field = true

namespace FieldCompare

def create (entity : EntityType) (field : String) (op : Comparison) (value : Literal) :
    Except SpecError FieldCompare :=
  if h : isIdentifier field = true then .ok ⟨entity, field, op, value, h⟩
  else .error (.invalidIdentifier field)

def equals (entity : EntityType) (field : String) (value : Literal) :
    Except SpecError FieldCompare :=
  create entity field .equal value

/-- A row without the field does not satisfy the comparison. -/
def holdsOn (c : FieldCompare) (row : Json) : Bool :=
  match row.get? c.field with
  | none => false
  | some actual => c.op.holds (actual.compare? c.value.value)

end FieldCompare

/-- A composite has a first child and any number of further ones. -/
inductive Spec (Leaf : Type) where
  | allOf (first : Spec Leaf) (rest : List (Spec Leaf))
  | anyOf (first : Spec Leaf) (rest : List (Spec Leaf))
  | not (child : Spec Leaf)
  | any
  | field (criterion : FieldCompare)
  | leaf (criterion : Leaf)

/-- The type of a specification, which decides who handles it. -/
inductive SpecType where
  | allOf
  | anyOf
  | not
  | any
  | field
  | leaf (name : String)
  deriving DecidableEq

namespace SpecType

/-- The full name, as error messages show it. -/
def name : SpecType → String
  | .allOf => "specbridge_core::spec::AllOf"
  | .anyOf => "specbridge_core::spec::AnyOf"
  | .not => "specbridge_core::spec::Not"
  | .any => "specbridge_core::spec::Any"
  | .field => "specbridge_core::field::FieldCompare"
  | .leaf name => name

/-- The characters before the first double colon. -/
def untilPath : List Char → List Char
  | ':' :: ':' :: _ => []
  | c :: rest => c :: untilPath rest
  | [] => []

/-- What follows the last double colon of the part before the first angle bracket. -/
def shortName (type : SpecType) : String :=
  let base := type.name.toList.takeWhile (· != '<')
  String.ofList (untilPath base.reverse).reverse

end SpecType

namespace Spec

variable {Leaf Object : Type}

def allOf? : List (Spec Leaf) → Except SpecError (Spec Leaf)
  | [] => .error (.emptyComposite "AllOf")
  | first :: rest => .ok (.allOf first rest)

def anyOf? : List (Spec Leaf) → Except SpecError (Spec Leaf)
  | [] => .error (.emptyComposite "AnyOf")
  | first :: rest => .ok (.anyOf first rest)

def children : Spec Leaf → List (Spec Leaf)
  | .allOf first rest | .anyOf first rest => first :: rest
  | .not child => [child]
  | .any | .field _ | .leaf _ => []

def type [SpecLeaf Leaf Object] : Spec Leaf → SpecType
  | .allOf .. => .allOf
  | .anyOf .. => .anyOf
  | .not _ => .not
  | .any => .any
  | .field _ => .field
  | .leaf criterion => .leaf (SpecLeaf.typeName criterion)

mutual
def isSatisfiedBy [SpecLeaf Leaf Object] (candidate : Candidate Object) : Spec Leaf → Bool
  | .allOf first rest => first.isSatisfiedBy candidate && allSatisfiedBy candidate rest
  | .anyOf first rest => first.isSatisfiedBy candidate || anySatisfiedBy candidate rest
  | .not child => !child.isSatisfiedBy candidate
  | .any => true
  | .field criterion =>
    match candidate with
    | .row row => criterion.holdsOn row
    | .object _ => false
  | .leaf criterion => SpecLeaf.isSatisfiedBy criterion candidate

def allSatisfiedBy [SpecLeaf Leaf Object] (candidate : Candidate Object) :
    List (Spec Leaf) → Bool
  | [] => true
  | spec :: rest => spec.isSatisfiedBy candidate && allSatisfiedBy candidate rest

def anySatisfiedBy [SpecLeaf Leaf Object] (candidate : Candidate Object) :
    List (Spec Leaf) → Bool
  | [] => false
  | spec :: rest => spec.isSatisfiedBy candidate || anySatisfiedBy candidate rest
end

end Spec

end Criteria
