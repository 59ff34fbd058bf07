import Criteria.Text.LetterCase

/-!
Lower case for all of Unicode: character by character, but for the capital I
with a dot, which becomes two characters, and the capital sigma, which has
another form at the end of a word.
-/

set_option autoImplicit false

namespace Criteria

namespace LetterCase

/-- The lower-case form of a character that has one of a single character, and else itself. -/
def lower (c : Char) : Char :=
  match lowerRuns.find? fun run => run.holds c.toNat with
  | some run => Char.ofNat (c.toNat + run.shift).toNat
  | none => c

def isCased (c : Char) : Bool :=
  inRanges casedRanges c.toNat

def isIgnorable (c : Char) : Bool :=
  inRanges ignorableRanges c.toNat

/-- Whether the first character that is not passed over is a cased letter. -/
def leadsToCased (cs : List Char) : Bool :=
  match cs.dropWhile isIgnorable with
  | [] => false
  | c :: _ => isCased c

/-- A capital sigma ends a word when a letter comes before it and none comes after it. -/
def lowerSigma (before after : List Char) : Char :=
  if leadsToCased before && !leadsToCased after then 'ς' else 'σ'

/-- Lower-cases the characters of a text that follow those of `before`, the last one first. -/
def lowerFrom (before : List Char) : List Char → List Char
  | [] => []
  | c :: after =>
    (if c = 'Σ' then [lowerSigma before after]
      else if c = 'İ' then ['i', '\u0307']
      else [lower c]) ++ lowerFrom (c :: before) after

end LetterCase

def lowercase (s : String) : String :=
  String.ofList (LetterCase.lowerFrom [] s.toList)

end Criteria
