import Criteria.Condition.Basic
import Criteria.Json.Decoder

/-! Conditions as values, and back. -/

set_option autoImplicit false

namespace Criteria

namespace Comparison

def name : Comparison → String
  | .equal => "eq"
  | .notEqual => "neq"
  | .less => "lt"
  | .atMost => "lte"
  | .greater => "gt"
  | .atLeast => "gte"

def named? : String → Option Comparison
  | "eq" => some .equal
  | "neq" => some .notEqual
  | "lt" => some .less
  | "lte" => some .atMost
  | "gt" => some .greater
  | "gte" => some .atLeast
  | _ => none

def encode (op : Comparison) : Json :=
  .text op.name

def decoder : Decoder Comparison :=
  Decoder.constant named?

end Comparison

namespace FieldRef

def encode (ref : FieldRef) : Json :=
  .record [("alias", .text ref.aliasName), ("field", .text ref.field)]

def decoder : Decoder FieldRef
  | depth + 1, document => do
    let [aliasName, field] ← Decoder.fields ["alias", "field"] 2 document | none
    let aliasName ← Decoder.required .text depth aliasName
    let field ← Decoder.required .text depth field
    return ⟨aliasName, field⟩
  | 0, _ => none

end FieldRef

namespace Operand

def encode : Operand → Json
  | .field ref => .record [("field", ref.encode)]
  | .parameter name => .record [("param", .text name)]

def decoder : Decoder Operand
  | depth + 1, .record [(some kind, payload)] =>
    match kind with
    | "field" => (FieldRef.decoder depth payload).map .field
    | "param" => (Decoder.text depth payload).map .parameter
    | _ => none
  | _, _ => none

end Operand

namespace Condition

mutual
def encode : Condition → Json
  | .always => .text "true"
  | .compare left op right =>
    .record [("compare",
      .record [("left", left.encode), ("op", op.encode), ("right", right.encode)])]
  | .all parts => .record [("and", .list (encodeParts parts))]
  | .any parts => .record [("or", .list (encodeParts parts))]
  | .not part => .record [("not", part.encode)]

def encodeParts : List Condition → List Json
  | [] => []
  | part :: rest => part.encode :: encodeParts rest
end

def decodeCompare : Decoder Condition
  | depth + 1, document => do
    let [left, op, right] ← Decoder.fields ["left", "op", "right"] 3 document | none
    let left ← Decoder.required Operand.decoder depth left
    let op ← Decoder.required Comparison.decoder depth op
    let right ← Decoder.required Operand.decoder depth right
    return .compare left op right
  | 0, _ => none

/-- Every step inwards opens a record, so the nesting that is left bounds the recursion. -/
def decoder : Decoder Condition
  | _, .text (some "true") => some .always
  | depth + 1, .record [(some kind, payload)] =>
    match kind, depth, payload with
    | "true", _, .null => some .always
    | "compare", depth, payload => decodeCompare depth payload
    | "and", depth + 1, .list parts => (parts.mapM (decoder depth)).map .all
    | "or", depth + 1, .list parts => (parts.mapM (decoder depth)).map .any
    | "not", depth, payload => (decoder depth payload).map .not
    | _, _, _ => none
  | _, _ => none

end Condition

end Criteria
