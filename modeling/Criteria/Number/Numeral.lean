import Criteria.Number.Basic
import Criteria.Text.Basic

/-!
Decimal numerals: their grammar, and the number that each one stands for.

The digits of a numeral gather in a significand of 64 bits. A numeral without
fraction and exponent whose digits all fit is a whole number; any other is
the significand scaled by a power of ten, rounded at each step, or no number
at all when it lies beyond the finite ones.
-/

set_option autoImplicit false

namespace Criteria

structure Numeral where
  negative : Bool
  whole : List Nat
  /-- The digits after the point; none without a point. -/
  fraction : List Nat
  /-- The sign and the digits after the exponent mark. -/
  exponent : Option (Bool × List Nat)

namespace Numeral

def isDigit (b : UInt8) : Bool :=
  48 ≤ b && b ≤ 57

/-- The digits that a text begins with, and what follows them. -/
def digits (bytes : Bytes) : List Nat × Bytes :=
  ((bytes.takeWhile isDigit).map fun b => b.toNat - 48, bytes.dropWhile isDigit)

/-- One digit or more. -/
def digits1? (bytes : Bytes) : Option (List Nat × Bytes) :=
  match digits bytes with
  | ([], _) => none
  | found => some found

/-- A zero stands alone before the point. -/
def whole? (bytes : Bytes) : Option (List Nat × Bytes) :=
  match digits bytes with
  | ([], _) => none
  | (0 :: _ :: _, _) => none
  | found => some found

def fraction? : Bytes → Option (List Nat × Bytes)
  | 0x2e :: rest => digits1? rest
  | bytes => some ([], bytes)

def signed? : Bytes → Option ((Bool × List Nat) × Bytes)
  | 0x2b :: rest => (digits1? rest).map fun (ds, rest) => ((false, ds), rest)
  | 0x2d :: rest => (digits1? rest).map fun (ds, rest) => ((true, ds), rest)
  | bytes => (digits1? bytes).map fun (ds, rest) => ((false, ds), rest)

def exponent? : Bytes → Option (Option (Bool × List Nat) × Bytes)
  | 0x65 :: rest => (signed? rest).map fun (e, rest) => (some e, rest)
  | 0x45 :: rest => (signed? rest).map fun (e, rest) => (some e, rest)
  | bytes => some (none, bytes)

def unsigned? (negative : Bool) (bytes : Bytes) : Option (Numeral × Bytes) := do
  let (whole, rest) ← whole? bytes
  let (fraction, rest) ← fraction? rest
  let (exponent, rest) ← exponent? rest
  return (⟨negative, whole, fraction, exponent⟩, rest)

/-- The numeral that a text begins with, and what follows it. -/
def read? : Bytes → Option (Numeral × Bytes)
  | 0x2d :: rest => unsigned? true rest
  | bytes => unsigned? false bytes

/-- Appends digits to a significand while it fits into 64 bits; the rest is left over. -/
def gather (significand : Nat) : List Nat → Nat × List Nat
  | [] => (significand, [])
  | d :: ds =>
    if 10 * significand + d < Nat.pow 2 64 then gather (10 * significand + d) ds
    else (significand, d :: ds)

def digitsValue (ds : List Nat) : Nat :=
  ds.foldl (fun value d => 10 * value + d) 0

/-- `x * 10^exponent`, by one rounded product or quotient, after quotients by `10^308` for as
long as the exponent lies below `-308`. Nothing when the result is not finite. -/
def scaleByTen (x : Binary64) (exponent : Int) : Option Binary64 :=
  if exponent.natAbs ≤ 308 then
    if 0 ≤ exponent then
      let product := x.mul (.powerOfTen exponent.toNat)
      if product.isFinite then some product else none
    else some (x.div (.powerOfTen exponent.natAbs))
  else if x.magnitude = 0 then some x
  else if 0 ≤ exponent then none
  else scaleByTen (x.div (.powerOfTen 308)) (exponent + 308)
termination_by (-exponent).toNat

def withSign (negative : Bool) (x : Binary64) : Binary64 :=
  if negative then x.negate else x

/-- The greatest exponent that is scaled by; beyond it lie zero and infinity. -/
def maxExponent : Nat :=
  Nat.pow 2 31 - 1

def float? (n : Numeral) (significand : Nat) (leftOver : Nat) : Option Binary64 :=
  let (significand, dropped) := gather significand n.fraction
  let point : Int := leftOver - (n.fraction.length - dropped.length : Nat)
  (match n.exponent with
    | none => scaleByTen (.ofInt significand) point
    | some (negative, ds) =>
      let exponent := digitsValue ds
      if maxExponent < exponent then
        if significand ≠ 0 ∧ ¬negative then none else some .zero
      else scaleByTen (.ofInt significand) (if negative then point - exponent else point + exponent)
  ).map (withSign n.negative)

/-- The number that a numeral stands for; none beyond the finite ones. A negative zero is no
whole number, nor is one below the signed 64-bit range. -/
def value? (n : Numeral) : Option Number :=
  let (significand, leftOver) := gather 0 n.whole
  if leftOver.isEmpty && n.fraction.isEmpty && n.exponent.isNone then
    if n.negative = false then some (.int significand)
    else if 1 ≤ significand ∧ significand ≤ Nat.pow 2 63 then some (.int (-significand))
    else some (.float (Binary64.ofInt significand).negate)
  else (n.float? significand leftOver.length).map .float

end Numeral

end Criteria
