import Runbook.Number.Decimal

/-!
# The extended rational line

Integers, binary numbers and decimals compare exactly by value: each is a point of the rational line
with two infinite ends, or it is not a number.
-/

namespace Runbook

/-- A rational number or one of the two infinities. -/
inductive Extended where
  | negInf
  | finite (value : Rat)
  | posInf
  deriving DecidableEq

namespace Extended

/-- The order of the line. -/
def lt : Extended → Extended → Bool
  | negInf, negInf => false
  | negInf, _ => true
  | finite _, negInf => false
  | finite a, finite b => decide (a < b)
  | finite _, posInf => true
  | posInf, _ => false

/-- The infinity of the given sign. -/
def infinity (negative : Bool) : Extended := if negative then negInf else posInf

end Extended

/-- The point of a binary number, none for a NaN. -/
def Binary64.toExtended? : Binary64 → Option Extended
  | .nan _ => none
  | .inf s => some (.infinity s)
  | .finite s m e => some (.finite (Binary64.value s m e))

/-- The point of a decimal, none for a NaN. -/
def Decimal.toExtended? : Decimal → Option Extended
  | .nan .. => none
  | .inf s => some (.infinity s)
  | .finite s c e => some (.finite (Decimal.value s c e))

end Runbook
