/-!
Floating-point numbers of 64 bits, with exact integer arithmetic.

Every finite number is a whole multiple of the least positive one, `2^-1074`.
A number is compared, multiplied and divided through that multiple, and a
result is rounded once, to the nearest number with ties to the even one.
-/

set_option autoImplicit false

namespace Criteria

structure Binary64 where
  bits : UInt64
  deriving DecidableEq

namespace Binary64

def negative (x : Binary64) : Bool :=
  decide (Nat.pow 2 63 ≤ x.bits.toNat)

def exponentField (x : Binary64) : Nat :=
  x.bits.toNat / Nat.pow 2 52 % Nat.pow 2 11

def fraction (x : Binary64) : Nat :=
  x.bits.toNat % Nat.pow 2 52

def isFinite (x : Binary64) : Bool :=
  x.exponentField != 2047

def isNaN (x : Binary64) : Bool :=
  x.exponentField == 2047 && x.fraction != 0

def significand (x : Binary64) : Nat :=
  if x.exponentField = 0 then x.fraction else Nat.pow 2 52 + x.fraction

/-- The unit of the last place is `2^scale` times the least positive number. -/
def scale (x : Binary64) : Nat :=
  x.exponentField - 1

/-- The magnitude as a multiple of the least positive number. -/
def magnitude (x : Binary64) : Nat :=
  x.significand * Nat.pow 2 x.scale

/-- The value as a multiple of the least positive number. An infinity lies beyond
every finite value, as its fields say. -/
def value (x : Binary64) : Int :=
  if x.negative then -(x.magnitude : Int) else x.magnitude

/-- The order of the values: the two zeros are equal, and a NaN has no place in it. -/
def compare? (x y : Binary64) : Option Ordering :=
  if x.isNaN || y.isNaN then none else some (compare x.value y.value)

/-- The whole number nearest to a quotient; of two equally near ones the even one. -/
def divideToEven (num den : Nat) : Nat :=
  let quotient := num / den
  match compare (2 * (num % den)) den with
  | .lt => quotient
  | .gt => quotient + 1
  | .eq => quotient + quotient % 2

def infinityField : Nat :=
  2047 * Nat.pow 2 52

/-- The fields, without sign, of the number nearest to `num / den`. Adding the rounded
significand to the shifted scale also carries into the next binade, and past the last one
to infinity. -/
def nearestField (num den : Nat) : Nat :=
  let units := num * Nat.pow 2 1074
  let scale := (units / den).log2 - 52
  min (scale * Nat.pow 2 52 + divideToEven units (den * Nat.pow 2 scale)) infinityField

def nearest (negative : Bool) (num den : Nat) : Binary64 :=
  ⟨.ofNat ((if negative then Nat.pow 2 63 else 0) + nearestField num den)⟩

def zero : Binary64 :=
  nearest false 0 1

def ofInt (i : Int) : Binary64 :=
  nearest (decide (i < 0)) i.natAbs 1

def negate (x : Binary64) : Binary64 :=
  ⟨x.bits ^^^ 0x8000000000000000⟩

/-- The product of two finite numbers, rounded. -/
def mul (x y : Binary64) : Binary64 :=
  nearest (x.negative != y.negative) (x.magnitude * y.magnitude) (Nat.pow 2 2148)

/-- The quotient of two finite numbers, the second not zero, rounded. -/
def div (x y : Binary64) : Binary64 :=
  nearest (x.negative != y.negative) x.magnitude y.magnitude

/-- The number nearest to `10^n`. -/
def powerOfTen (n : Nat) : Binary64 :=
  nearest false (Nat.pow 10 n) 1

end Binary64

end Criteria
