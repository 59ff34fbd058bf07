import Criteria.Json.Order

/-! Conditions over the fields of aliased rows and over named parameters. -/

set_option autoImplicit false

namespace Criteria

inductive Comparison where
  | equal
  | notEqual
  | less
  | atMost
  | greater
  | atLeast
  deriving DecidableEq

namespace Comparison

def symbol : Comparison → String
  | .equal => "="
  | .notEqual => "<>"
  | .less => "<"
  | .atMost => "<="
  | .greater => ">"
  | .atLeast => ">="

/-- Whether the comparison holds between values in this order. Between values without an order
none does. -/
def holds (op : Comparison) : Option Ordering → Bool
  | none => false
  | some ordering =>
    match op with
    | .equal => ordering.isEq
    | .notEqual => ordering.isNe
    | .less => ordering.isLT
    | .atMost => ordering.isLE
    | .greater => ordering.isGT
    | .atLeast => ordering.isGE

end Comparison

/-- A field of the row that an alias stands for. -/
structure FieldRef where
  aliasName : String
  field : String
  deriving DecidableEq

def FieldRef.text (ref : FieldRef) : String :=
  ref.aliasName ++ "." ++ ref.field

inductive Operand where
  | field (ref : FieldRef)
  | parameter (name : String)
  deriving DecidableEq

namespace Operand

def text : Operand → String
  | .field ref => ref.text
  | .parameter name => ":" ++ name

def field? : Operand → Option FieldRef
  | .field ref => some ref
  | .parameter _ => none

def parameter? : Operand → Option String
  | .parameter name => some name
  | .field _ => none

end Operand

inductive Condition where
  | always
  | compare (left : Operand) (op : Comparison) (right : Operand)
  | all (parts : List Condition)
  | any (parts : List Condition)
  | not (part : Condition)

namespace Condition

/-- Both conditions; a conjunction takes the other one in as a further part. -/
def andAlso : Condition → Condition → Condition
  | .all parts, other => .all (parts ++ [other])
  | existing, other => .all [existing, other]

mutual
/-- The operands of all comparisons, from left to right. -/
def operands : Condition → List Operand
  | .always => []
  | .compare left _ right => [left, right]
  | .all parts | .any parts => operandsOfParts parts
  | .not part => part.operands

def operandsOfParts : List Condition → List Operand
  | [] => []
  | part :: rest => part.operands ++ operandsOfParts rest
end

def parameterNames (c : Condition) : List String :=
  c.operands.filterMap Operand.parameter?

def fieldRefs (c : Condition) : List FieldRef :=
  c.operands.filterMap Operand.field?

/-- The parts of a conjunction or disjunction as text. Several stand between parentheses, so that
what surrounds them cannot regroup them. -/
def groupText (separator unit : String) : List String → String
  | [] => unit
  | [part] => part
  | parts => "(" ++ separator.intercalate parts ++ ")"

mutual
def text : Condition → String
  | .always => "1 = 1"
  | .compare left op right => left.text ++ " " ++ op.symbol ++ " " ++ right.text
  | .all parts => groupText " AND " "1 = 1" (partTexts parts)
  | .any parts => groupText " OR " "1 = 0" (partTexts parts)
  | .not part => "NOT(" ++ part.text ++ ")"

def partTexts : List Condition → List String
  | [] => []
  | part :: rest => part.text :: partTexts rest
end

/-- The condition as a clause of its own, which needs no parentheses around it. -/
def clauseText : Condition → String
  | .all (first :: second :: rest) => " AND ".intercalate (partTexts (first :: second :: rest))
  | .any (first :: second :: rest) => " OR ".intercalate (partTexts (first :: second :: rest))
  | c => c.text

end Condition

end Criteria
