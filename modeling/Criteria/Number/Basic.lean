import Criteria.Number.Binary64

/-!
Numbers as documents hold them: whole numbers stay whole, and all others are
64-bit floating-point numbers.
-/

set_option autoImplicit false

namespace Criteria

inductive Number where
  | int (value : Int)
  | float (value : Binary64)
  deriving DecidableEq

namespace Number

def toBinary64 : Number → Binary64
  | .int i => .ofInt i
  | .float x => x

/-- A whole number of the signed 64-bit range. -/
def int64? : Number → Option Int
  | .int i => if -(Nat.pow 2 63) ≤ i ∧ i < Nat.pow 2 63 then some i else none
  | .float _ => none

/-- Two whole numbers of the signed 64-bit range compare exactly, all others as
floating-point numbers. -/
def compare? (a b : Number) : Option Ordering :=
  match a.int64?, b.int64? with
  | some i, some j => some (compare i j)
  | _, _ => a.toBinary64.compare? b.toBinary64

end Number

end Criteria
