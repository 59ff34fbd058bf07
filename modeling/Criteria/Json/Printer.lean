import Criteria.Json.Quoted
import Criteria.Json.Tree
import Criteria.Number.Decimal

/-! Values as text, without blanks and with the members of a record in order. -/

set_option autoImplicit false

namespace Criteria

/-- Floating-point numbers keep a point, and show an exponent from `10^16` on and below `10^-5`. -/
def jsonLayout : Decimal.Layout where
  positional leading := decide (-5 ≤ leading) && decide (leading < 16)
  keepsPoint := true
  tie := .even

/-- A number that is not finite has no numeral. -/
def Number.text : Number → String
  | .int i => toString i
  | .float x => if x.isFinite then jsonLayout.text x else "null"

namespace JsonTree

mutual
def chars : Json → List Char
  | .null => "null".toList
  | .bool true => "true".toList
  | .bool false => "false".toList
  | .number n => n.text.toList
  | .text s => Quoted.chars s
  | .list [] => ['[', ']']
  | .list (item :: rest) => '[' :: item.chars ++ itemChars rest
  | .record [] => ['{', '}']
  | .record ((name, member) :: rest) =>
    '{' :: Quoted.chars name ++ ':' :: member.chars ++ memberChars rest

def itemChars : List Json → List Char
  | [] => [']']
  | item :: rest => ',' :: item.chars ++ itemChars rest

def memberChars : List (String × Json) → List Char
  | [] => ['}']
  | (name, member) :: rest =>
    ',' :: Quoted.chars name ++ ':' :: member.chars ++ memberChars rest
end

def render (j : Json) : String :=
  String.ofList j.chars

end JsonTree

end Criteria
