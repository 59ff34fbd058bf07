import Criteria.Json.Quoted
import Criteria.Json.Tree
import Criteria.Number.Numeral

/-!
Reading documents from text: a machine that takes one token after another and
keeps the lists and records that are still open.
-/

set_option autoImplicit false

namespace Criteria

inductive Token where
  | openList
  | closeList
  | openRecord
  | closeRecord
  | comma
  | colon
  | null
  | bool (value : Bool)
  | number (value : Option Number)
  | text (value : Option String)

namespace Token

/-- The token that a text begins with, and what follows it. -/
def read? : Bytes → Option (Token × Bytes)
  | 0x5b :: rest => some (.openList, rest)
  | 0x5d :: rest => some (.closeList, rest)
  | 0x7b :: rest => some (.openRecord, rest)
  | 0x7d :: rest => some (.closeRecord, rest)
  | 0x2c :: rest => some (.comma, rest)
  | 0x3a :: rest => some (.colon, rest)
  | 0x6e :: 0x75 :: 0x6c :: 0x6c :: rest => some (.null, rest)
  | 0x74 :: 0x72 :: 0x75 :: 0x65 :: rest => some (.bool true, rest)
  | 0x66 :: 0x61 :: 0x6c :: 0x73 :: 0x65 :: rest => some (.bool false, rest)
  | 0x22 :: rest => (Quoted.read? rest).map fun (parts, rest) => (.text (Quoted.decode? parts), rest)
  | bytes => (Numeral.read? bytes).map fun (numeral, rest) => (.number numeral.value?, rest)

end Token

namespace Document

/-- An open list or record: what it holds so far, last first, and for a record the name whose
value is being read. -/
inductive Frame where
  | list (items : List Document)
  | record (members : List (Option String × Document)) (name : Option String)

/-- What may come next. -/
inductive Expected where
  | value
  | firstItem
  | firstName
  | name (members : List (Option String × Document))
  | colon (members : List (Option String × Document)) (name : Option String)
  /-- A value is complete. -/
  | next (value : Document)

structure Reader where
  frames : List Frame
  expected : Expected

namespace Reader

def start : Reader :=
  ⟨[], .value⟩

/-- A token at the place of a value. -/
def beginValue (frames : List Frame) : Token → Option Reader
  | .openList => some ⟨frames, .firstItem⟩
  | .openRecord => some ⟨frames, .firstName⟩
  | .null => some ⟨frames, .next .null⟩
  | .bool b => some ⟨frames, .next (.bool b)⟩
  | .number n => some ⟨frames, .next (.number n)⟩
  | .text s => some ⟨frames, .next (.text s)⟩
  | .closeList | .closeRecord | .comma | .colon => none

/-- A token after a complete value. -/
def afterValue (value : Document) : List Frame → Token → Option Reader
  | .list items :: frames, .comma => some ⟨.list (value :: items) :: frames, .value⟩
  | .list items :: frames, .closeList => some ⟨frames, .next (.list (value :: items).reverse)⟩
  | .record members name :: frames, .comma => some ⟨frames, .name ((name, value) :: members)⟩
  | .record members name :: frames, .closeRecord =>
    some ⟨frames, .next (.record ((name, value) :: members).reverse)⟩
  | _, _ => none

def step (reader : Reader) (token : Token) : Option Reader :=
  match reader.expected, token with
  | .value, token => beginValue reader.frames token
  | .firstItem, .closeList => some ⟨reader.frames, .next (.list [])⟩
  | .firstItem, token => beginValue (.list [] :: reader.frames) token
  | .firstName, .closeRecord => some ⟨reader.frames, .next (.record [])⟩
  | .firstName, .text name => some ⟨reader.frames, .colon [] name⟩
  | .name members, .text name => some ⟨reader.frames, .colon members name⟩
  | .colon members name, .colon => some ⟨.record members name :: reader.frames, .value⟩
  | .next value, token => afterValue value reader.frames token
  | _, _ => none

/-- The document, when nothing is open any more. -/
def result? : Reader → Option Document
  | ⟨[], .next value⟩ => some value
  | _ => none

def isBlank (b : UInt8) : Bool :=
  b == 0x20 || b == 0x09 || b == 0x0a || b == 0x0d

/-- Reads on for at most as many tokens as `fuel` says. -/
def run : Nat → Reader → Bytes → Option Document
  | fuel, reader, bytes =>
    match bytes.dropWhile isBlank, fuel with
    | [], _ => reader.result?
    | _ :: _, 0 => none
    | bytes, fuel + 1 =>
      match Token.read? bytes with
      | none => none
      | some (token, rest) =>
        match reader.step token with
        | none => none
        | some reader => run fuel reader rest

end Reader

/-- The document that a text holds. A token takes a byte at least, so there are no more tokens
than bytes. -/
def read? (text : Bytes) : Option Document :=
  Reader.run text.length .start text

end Document

end Criteria
