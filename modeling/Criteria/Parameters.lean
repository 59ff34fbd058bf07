import Criteria.Literal
import Criteria.Text.Basic

/-! Named parameters, in the order in which they were bound. -/

set_option autoImplicit false

namespace Criteria

structure Parameters where
  entries : List (String × Literal) := []

namespace Parameters

def names (ps : Parameters) : List String :=
  ps.entries.map Prod.fst

def size (ps : Parameters) : Nat :=
  ps.entries.length

def isEmpty (ps : Parameters) : Bool :=
  ps.entries.isEmpty

/-- The first value under a name. -/
def get? (ps : Parameters) (name : String) : Option Literal :=
  ps.entries.lookup name

def contains (ps : Parameters) (name : String) : Bool :=
  (ps.get? name).isSome

/-- The word that the names of a hint begin with: the hint with all but word characters replaced
by underscores. -/
def stem (hint : String) : String :=
  if hint.isEmpty then "param"
  else String.ofList (hint.toList.map fun c => if isWordChar c then c else '_')

def numberedName (hint : String) (n : Nat) : String :=
  stem hint ++ "_" ++ toString n

/-- The name that binding under a hint takes: the first free number, from the number of
parameters on. -/
def freshName (ps : Parameters) (hint : String) : String :=
  numberedName hint (firstFree ps.names (numberedName hint) ps.size)

/-- Binds a value under a fresh name. -/
def bind (ps : Parameters) (hint : String) (value : Literal) : String × Parameters :=
  let name := ps.freshName hint
  (name, ⟨ps.entries ++ [(name, value)]⟩)

def assignIn (name : String) (value : Literal) : List (String × Literal) → List (String × Literal)
  | [] => [(name, value)]
  | (other, kept) :: rest =>
    if other = name then (other, value) :: rest else (other, kept) :: assignIn name value rest

/-- Puts a value under a name, in the place of the first one there. -/
def assign (ps : Parameters) (name : String) (value : Literal) : Parameters :=
  ⟨assignIn name value ps.entries⟩

end Parameters

end Criteria
