import Criteria.Number.Basic

/-!
Trees of the JSON data model. A `Json` is a value; a `Document` is what
reading a text gives, in which a string that is not Unicode and a number that
is not finite are holes: they matter only to a reader that needs them.
-/

set_option autoImplicit false

namespace Criteria

inductive JsonTree (Text Number : Type) where
  | null
  | bool (value : Bool)
  | number (value : Number)
  | text (value : Text)
  | list (items : List (JsonTree Text Number))
  | record (members : List (Text × JsonTree Text Number))

abbrev Json := JsonTree String Number

abbrev Document := JsonTree (Option String) (Option Number)

namespace JsonTree

variable {Text Number : Type}

instance : Inhabited (JsonTree Text Number) := ⟨.null⟩

mutual
/-- The number of lists and records around the innermost position. -/
def depth : JsonTree Text Number → Nat
  | .list items => depthOfItems items + 1
  | .record members => depthOfMembers members + 1
  | .null | .bool _ | .number _ | .text _ => 0

def depthOfItems : List (JsonTree Text Number) → Nat
  | [] => 0
  | item :: rest => max item.depth (depthOfItems rest)

def depthOfMembers : List (Text × JsonTree Text Number) → Nat
  | [] => 0
  | (_, member) :: rest => max member.depth (depthOfMembers rest)
end

end JsonTree

mutual
/-- A value as a document without holes. -/
def JsonTree.toDocument : Json → Document
  | .null => .null
  | .bool b => .bool b
  | .number n => .number (some n)
  | .text s => .text (some s)
  | .list items => .list (toDocuments items)
  | .record members => .record (toDocumentMembers members)

def JsonTree.toDocuments : List Json → List Document
  | [] => []
  | item :: rest => item.toDocument :: toDocuments rest

def JsonTree.toDocumentMembers : List (String × Json) → List (Option String × Document)
  | [] => []
  | (name, member) :: rest => (some name, member.toDocument) :: toDocumentMembers rest
end

end Criteria
