import Criteria.Json.Decoder
import Criteria.Number.Decimal

/-! Literals: the values that parameters stand for. -/

set_option autoImplicit false

namespace Criteria

inductive Literal where
  | text (value : String)
  | int (value : Int64)
  | float (value : Binary64)
  | bool (value : Bool)
  | null
  deriving DecidableEq

/-- Floating-point numbers are shown without exponent, and whole ones without a point. -/
def literalLayout : Decimal.Layout where
  positional _ := true
  keepsPoint := false
  tie := .up

namespace Literal

def floatText (x : Binary64) : String :=
  if x.isNaN then "NaN"
  else if x.isFinite then literalLayout.text x
  else if x.negative then "-inf"
  else "inf"

/-- The literal as it is shown, texts between quotes and without escapes. -/
def display : Literal → String
  | .text s => "\"" ++ s ++ "\""
  | .int i => toString i.toInt
  | .float x => floatText x
  | .bool true => "true"
  | .bool false => "false"
  | .null => "NULL"

/-- A floating-point number as a value; null when it is not finite. -/
def floatValue (x : Binary64) : Json :=
  if x.isFinite then .number (.float x) else .null

/-- The value that stored rows are compared with. -/
def value : Literal → Json
  | .text s => .text s
  | .int i => .number (.int i.toInt)
  | .float x => floatValue x
  | .bool b => .bool b
  | .null => .null

def encode : Literal → Json
  | .text s => .record [("string", .text s)]
  | .int i => .record [("int", .number (.int i.toInt))]
  | .float x => .record [("float", floatValue x)]
  | .bool b => .record [("bool", .bool b)]
  | .null => .text "null"

def decoder : Decoder Literal
  | _, .text (some "null") => some .null
  | depth + 1, .record [(some kind, payload)] =>
    match kind with
    | "string" => (Decoder.text depth payload).map .text
    | "int" => (Decoder.int64 depth payload).map .int
    | "float" => (Decoder.float depth payload).map .float
    | "bool" => (Decoder.bool depth payload).map .bool
    | "null" => match payload with
      | .null => some .null
      | _ => none
    | _ => none
  | _, _ => none

end Literal

end Criteria
