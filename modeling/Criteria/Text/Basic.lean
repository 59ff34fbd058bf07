/-! Texts: their bytes, the words that may stand in a condition unquoted, and names with numbers. -/

set_option autoImplicit false

namespace Criteria

/-! ### Bytes

Keys and documents are stored as bytes, and the order of strings is the order of their bytes. -/

abbrev Bytes := List UInt8

/-- The UTF-8 encoding of a string. -/
def utf8 (s : String) : Bytes :=
  s.toUTF8.data.toList

/-- The string that a sequence of bytes encodes, if it encodes one. -/
def ofUtf8? (bytes : Bytes) : Option String :=
  String.fromUTF8? ⟨bytes.toArray⟩

/-! ### Words -/

/-- A letter, a digit or an underscore, all of ASCII. -/
def isWordChar (c : Char) : Bool :=
  c.isAlphanum || c == '_'

/-- A non-empty word that does not begin with a digit. -/
def isIdentifier (name : String) : Bool :=
  match name.toList with
  | [] => false
  | first :: rest => (first.isAlpha || first == '_') && rest.all isWordChar

/-! ### Numbered names

The first of `name start`, `name (start + 1)`, … that a list of taken names does not hold. -/

/-- The first number from `start` on whose name is free, after at most `tries` taken ones. -/
def firstFreeWithin (taken : List String) (name : Nat → String) : Nat → Nat → Nat
  | 0, start => start
  | tries + 1, start =>
    if name start ∈ taken then firstFreeWithin taken name tries (start + 1) else start

/-- The first number from `start` on whose name is free. Names that differ for different
numbers cannot all be taken: there are only as many taken ones as the list is long. -/
def firstFree (taken : List String) (name : Nat → String) (start : Nat) : Nat :=
  firstFreeWithin taken name taken.length start

end Criteria
