import Criteria.Number.Binary64

/-!
Shortest decimals: the fewest digits that lie nearer to a floating-point number
than to any other, and the ways of writing them.
-/

set_option autoImplicit false

namespace Criteria

/-- Which of two equally near decimals is taken. -/
inductive Tie where
  | even
  | up

/-- The value `digits * 10^exponent`. -/
structure Decimal where
  digits : Nat
  exponent : Int

namespace Decimal

/-- Moves trailing zeros of the digits into the exponent. -/
def trimWithin : Nat → Decimal → Decimal
  | 0, d => d
  | fuel + 1, d =>
    if d.digits ≠ 0 ∧ d.digits % 10 = 0 then trimWithin fuel ⟨d.digits / 10, d.exponent + 1⟩ else d

def trim (d : Decimal) : Decimal :=
  trimWithin d.digits.log2 d

def digitCount (n : Nat) : Nat :=
  (Nat.toDigits 10 n).length

/-- The greatest `e` with `10^e ≤ num / den`, for positive `num` and `den`. -/
def leadingExponent (num den : Nat) : Int :=
  if den ≤ num then (digitCount (num / den) : Int) - 1
  else -(digitCount ((den - 1) / num) : Int)

/-- The quotient `num / den`, scaled so that `10^exponent` becomes one. -/
def scaled (num den : Nat) (exponent : Int) : Nat × Nat :=
  (num * Nat.pow 10 (-exponent).toNat, den * Nat.pow 10 exponent.toNat)

/-- The reals that round to a number, as fractions over one denominator. -/
structure Interval where
  low : Nat
  mid : Nat
  high : Nat
  den : Nat
  /-- Whether the ends belong to the interval. -/
  closed : Bool

/-- Half the gap below a power of two is half of the gap above it. -/
def Interval.of (x : Binary64) : Interval :=
  let unit := Nat.pow 2 x.scale
  let below := if x.fraction = 0 ∧ 1 < x.exponentField then 1 else 2
  { low := (4 * x.significand - below) * unit
    mid := 4 * x.significand * unit
    high := (4 * x.significand + 2) * unit
    den := Nat.pow 2 1076
    closed := x.significand % 2 == 0 }

def Interval.holds (i : Interval) (exponent : Int) (digits : Nat) : Bool :=
  let (low, den) := scaled i.low i.den exponent
  let (high, _) := scaled i.high i.den exponent
  if i.closed then low ≤ digits * den && digits * den ≤ high
  else low < digits * den && digits * den < high

/-- The decimal on the grid of multiples of `10^exponent` that lies in the interval; of two,
the nearer one. -/
def Interval.onGrid (tie : Tie) (i : Interval) (exponent : Int) : Option Decimal :=
  let (num, den) := scaled i.mid i.den exponent
  let down := num / den
  match i.holds exponent down, i.holds exponent (down + 1) with
  | false, false => none
  | true, false => some ⟨down, exponent⟩
  | false, true => some ⟨down + 1, exponent⟩
  | true, true =>
    match compare (2 * (num % den)) den with
    | .lt => some ⟨down, exponent⟩
    | .gt => some ⟨down + 1, exponent⟩
    | .eq =>
      match tie with
      | .even => some ⟨down + down % 2, exponent⟩
      | .up => some ⟨down + 1, exponent⟩

/-- The magnitude of a finite number in as few digits as tell it from its neighbours. Seventeen
digits always suffice. -/
def shortest (tie : Tie) (x : Binary64) : Decimal :=
  if x.magnitude = 0 then ⟨0, 0⟩
  else
    let interval := Interval.of x
    let leading := leadingExponent interval.mid interval.den
    match (List.range 17).findSome? (fun n : Nat => interval.onGrid tie (leading - n)) with
    | some d => d.trim
    | none => ⟨0, 0⟩

/-- How a decimal is laid out as text. -/
structure Layout where
  /-- Leading exponents written without an exponent mark. -/
  positional : Int → Bool
  /-- Whether whole numbers keep a point and a zero. -/
  keepsPoint : Bool
  tie : Tie

def zeros (n : Nat) : String :=
  String.ofList (List.replicate n '0')

def positionalText (keepsPoint : Bool) (digits : List Char) (leading : Int) : String :=
  if leading < 0 then "0." ++ zeros (-leading - 1).toNat ++ String.ofList digits
  else
    let whole := leading.toNat + 1
    let rest := digits.drop whole
    String.ofList (digits.take whole) ++ zeros (whole - digits.length) ++
      (if rest.isEmpty then (if keepsPoint then ".0" else "") else "." ++ String.ofList rest)

def exponentText (digits : List Char) (leading : Int) : String :=
  let rest := digits.drop 1
  String.ofList (digits.take 1) ++
    (if rest.isEmpty then "" else "." ++ String.ofList rest) ++
    (if leading < 0 then "e-" else "e+") ++ toString leading.natAbs

/-- A finite number as text. -/
def Layout.text (layout : Layout) (x : Binary64) : String :=
  let d := shortest layout.tie x
  let digits := Nat.toDigits 10 d.digits
  let leading := d.exponent + digits.length - 1
  (if x.negative then "-" else "") ++
    (if layout.positional leading then positionalText layout.keepsPoint digits leading
     else exponentText digits leading)

end Decimal

end Criteria
