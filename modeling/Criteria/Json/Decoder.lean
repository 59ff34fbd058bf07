import Criteria.Dictionary
import Criteria.Json.Reader

/-!
Decoders: from documents to values of a type.

A decoder is told how many lists and records it may still open, one inside
another. Only what a decoder needs counts: a member that no one asks for may hold
anything.
-/

set_option autoImplicit false

namespace Criteria

/-- Decodes a document, opening at most the given number of nested lists and records. -/
abbrev Decoder (α : Type) := Nat → Document → Option α

/-- The deepest nesting of lists and records that a decoder follows. -/
def maxNesting : Nat := 127

namespace Decoder

variable {α β : Type}

/-- Decodes a text that holds one document and nothing else. -/
def decode? (d : Decoder α) (text : Bytes) : Option α :=
  (Document.read? text).bind (d maxNesting)

def text : Decoder String
  | _, .text (some s) => some s
  | _, _ => none

def bool : Decoder Bool
  | _, .bool b => some b
  | _, _ => none

/-- A whole number of the signed 64-bit range. -/
def int64 : Decoder Int64
  | _, .number (some n) => n.int64?.map Int64.ofInt
  | _, _ => none

/-- A whole number from zero to a bound. -/
def natUpTo (bound : Nat) : Decoder Nat
  | _, .number (some (.int i)) => if 0 ≤ i ∧ i ≤ bound then some i.toNat else none
  | _, _ => none

/-- Any number. -/
def float : Decoder Binary64
  | _, .number (some n) => some n.toBinary64
  | _, _ => none

def list (d : Decoder α) : Decoder (List α)
  | depth + 1, .list items => items.mapM (d depth)
  | _, _ => none

def pair (d : Decoder α) (e : Decoder β) : Decoder (α × β)
  | depth + 1, .list [first, second] => do
    let first ← d depth first
    let second ← e depth second
    return (first, second)
  | _, _ => none

/-- Null for nothing. -/
def orNull (d : Decoder α) : Decoder (Option α)
  | _, .null => some none
  | depth, document => (d depth document).map some

/-- One of several constants: its name, or a record of its name and null. -/
def constant (named? : String → Option α) : Decoder α
  | _, .text (some name) => named? name
  | _ + 1, .record [(some name, .null)] => named? name
  | _, _ => none

/-- The value of a member, nothing if the record has none of that name; a name that occurs
twice is an error. -/
def member (members : List (Option String × Document)) (name : String) : Option (Option Document) :=
  match members.filter fun m => m.1 == some name with
  | [] => some none
  | [(_, value)] => some (some value)
  | _ => none

/-- The fields of a structure, each with its value or nothing. A structure is a record, whose
other members are passed over, or the list of its fields, of which those after the first
`required` may be left out at the end. -/
def fields (names : List String) (required : Nat) : Document → Option (List (Option Document))
  | .record members =>
    if members.all fun m => m.1.isSome then names.mapM (member members) else none
  | .list items =>
    if required ≤ items.length ∧ items.length ≤ names.length then
      some (items.map some ++ List.replicate (names.length - items.length) none)
    else none
  | _ => none

/-- A field that must be there. -/
def required (d : Decoder α) (depth : Nat) (field : Option Document) : Option α :=
  field.bind (d depth)

/-- A field with a value to fall back on when it is missing. -/
def withDefault (fallback : α) (d : Decoder α) (depth : Nat) : Option Document → Option α
  | none => some fallback
  | some document => d depth document

end Decoder

namespace JsonTree

mutual
/-- The value of a document; of members with one name the last one counts. -/
def toJson? : Document → Option Json
  | .null => some .null
  | .bool b => some (.bool b)
  | .number n => n.map .number
  | .text s => s.map .text
  | .list items => (itemsToJson? items).map .list
  | .record members => (membersToJson? members).map fun members => .record (Dictionary.ofList members)

def itemsToJson? : List Document → Option (List Json)
  | [] => some []
  | item :: rest => do
    let item ← item.toJson?
    let rest ← itemsToJson? rest
    return item :: rest

def membersToJson? : List (Option String × Document) → Option (List (String × Json))
  | [] => some []
  | (name, member) :: rest => do
    let name ← name
    let member ← member.toJson?
    let rest ← membersToJson? rest
    return (name, member) :: rest
end

mutual
/-- The members of every record stand in ascending order of their names, each name once. -/
def Sorted : Json → Prop
  | .list items => ItemsSorted items
  | .record members => Dictionary.Sorted members ∧ MembersSorted members
  | .null | .bool _ | .number _ | .text _ => True

def ItemsSorted : List Json → Prop
  | [] => True
  | item :: rest => item.Sorted ∧ ItemsSorted rest

def MembersSorted : List (String × Json) → Prop
  | [] => True
  | (_, member) :: rest => member.Sorted ∧ MembersSorted rest
end

/-- The member of that name, if this is a record with one. -/
def get? (j : Json) (name : String) : Option Json :=
  match j with
  | .record members => Dictionary.find? members name
  | _ => none

def isRecord : Json → Bool
  | .record _ => true
  | _ => false

end JsonTree

/-- Any value, its records in order. -/
def Decoder.json : Decoder Json
  | depth, document => if document.depth ≤ depth then document.toJson? else none

end Criteria
