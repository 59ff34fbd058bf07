import Criteria.Condition.Encoding
import Criteria.Query.Basic

/-! Queries and their parts as values, and back. -/

set_option autoImplicit false

namespace Criteria

namespace EntityType

def encode (entity : EntityType) : Json :=
  .text entity.name

def decoder : Decoder EntityType
  | depth, document => (Decoder.text depth document).map .mk

end EntityType

namespace Root

def encode (root : Root) : Json :=
  .record [("entity", root.entity.encode), ("alias", .text root.aliasName)]

def decoder : Decoder Root
  | depth + 1, document => do
    let [entity, aliasName] ← Decoder.fields ["entity", "alias"] 2 document | none
    let entity ← Decoder.required EntityType.decoder depth entity
    let aliasName ← Decoder.required .text depth aliasName
    return ⟨entity, aliasName⟩
  | 0, _ => none

end Root

namespace JoinKind

def name : JoinKind → String
  | .inner => "inner"
  | .left => "left"

def named? : String → Option JoinKind
  | "inner" => some .inner
  | "left" => some .left
  | _ => none

end JoinKind

def encodeOptional : Option Condition → Json
  | none => .null
  | some condition => condition.encode

namespace Join

def encode (join : Join) : Json :=
  .record [("kind", .text join.kind.name), ("entity", join.entity.encode),
    ("alias", .text join.aliasName), ("condition", encodeOptional join.condition)]

def decoder : Decoder Join
  | depth + 1, document => do
    let [kind, entity, aliasName, condition] ←
      Decoder.fields ["kind", "entity", "alias", "condition"] 4 document | none
    let kind ← Decoder.required (.constant JoinKind.named?) depth kind
    let entity ← Decoder.required EntityType.decoder depth entity
    let aliasName ← Decoder.required .text depth aliasName
    let condition ← Decoder.withDefault none (.orNull Condition.decoder) depth condition
    return ⟨kind, entity, aliasName, condition⟩
  | 0, _ => none

end Join

namespace Direction

def name : Direction → String
  | .ascending => "asc"
  | .descending => "desc"

def named? : String → Option Direction
  | "asc" => some .ascending
  | "desc" => some .descending
  | _ => none

end Direction

namespace SortKey

def encode (key : SortKey) : Json :=
  .record [("field", key.field.encode), ("direction", .text key.direction.name)]

def decoder : Decoder SortKey
  | depth + 1, document => do
    let [field, direction] ← Decoder.fields ["field", "direction"] 2 document | none
    let field ← Decoder.required FieldRef.decoder depth field
    let direction ← Decoder.required (.constant Direction.named?) depth direction
    return ⟨field, direction⟩
  | 0, _ => none

end SortKey

namespace Parameters

def encodeEntry (entry : String × Literal) : Json :=
  .list [.text entry.1, entry.2.encode]

def encode (ps : Parameters) : Json :=
  .record [("entries", .list (ps.entries.map encodeEntry))]

def decoder : Decoder Parameters
  | depth + 1, document => do
    let [entries] ← Decoder.fields ["entries"] 1 document | none
    let entries ← Decoder.required (.list (.pair .text Literal.decoder)) depth entries
    return ⟨entries⟩
  | 0, _ => none

end Parameters

namespace Query

def encode (q : Query) : Json :=
  .record [
    ("select", .list (q.select.map .text)),
    ("from", .list (q.roots.map Root.encode)),
    ("joins", .list (q.joins.map Join.encode)),
    ("filter", encodeOptional q.filter),
    ("order_by", .list (q.order.map SortKey.encode)),
    ("parameters", q.parameters.encode)]

def decoder : Decoder Query
  | depth + 1, document => do
    let [select, roots, joins, filter, order, parameters] ←
      Decoder.fields ["select", "from", "joins", "filter", "order_by", "parameters"] 6 document
      | none
    let select ← Decoder.required (.list .text) depth select
    let roots ← Decoder.required (.list Root.decoder) depth roots
    let joins ← Decoder.required (.list Join.decoder) depth joins
    let filter ← Decoder.withDefault none (.orNull Condition.decoder) depth filter
    let order ← Decoder.required (.list SortKey.decoder) depth order
    let parameters ← Decoder.required Parameters.decoder depth parameters
    return { select, roots, joins, filter, order, parameters }
  | 0, _ => none

end Query

end Criteria
