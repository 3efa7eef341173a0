import Runbook.Number.Decimal

/-!
# Rounded decimals of binary numbers

* `Decimal.ofBinary`: a binary number with a fixed number of decimal places.
* `Binary64.significant`: a binary number with a fixed number of significant digits.
* `Binary64.generalText`: the text of those digits that databases use.

All of them round the exact value to the nearest decimal, a tie to the even one.
-/

namespace Runbook

/-- A binary number with so many decimal places. -/
def Decimal.ofBinary (places : Nat) : Binary64 → Decimal
  | .nan mark => .nan false false 0 mark
  | .inf s => .inf s
  | .finite s m e =>
    let (num, den) := Binary64.toRatio m e
    .finite s (Binary64.roundHalfEven (num * Nat.pow 10 places) den) (-places)

namespace Binary64

/-- A positive finite number rounded to so many significant digits: the digits without the zeros at their
end, and the power of ten of the first. -/
def significant (count mantissa : Nat) (exponent : Int) : List Char × Int :=
  let (num, den) := toRatio mantissa exponent
  let last : Int := leadingPower num den + 1 - count
  let (n, d) := if 0 ≤ last then (num, den * Nat.pow 10 last.toNat) else (num * Nat.pow 10 (-last).toNat, den)
  let ds := Digits.ofNat (roundHalfEven n d)
  ((ds.reverse.dropWhile (· == '0')).reverse, last + ds.length - 1)

/-- The text of a number with fifteen significant digits: positional for leading powers from -4 to 14, with
an exponent beyond, and always with a point. A zero has no sign. -/
def generalText : Binary64 → String
  | nan _ => "NaN"
  | inf s => if s then "-Inf" else "Inf"
  | finite _ 0 _ => "0.0"
  | finite s m e =>
    let (ds, power) := significant 15 m e
    let body :=
      if -4 ≤ power ∧ power ≤ 14 then positional ds power
      else scientific (if ds.length = 1 then ds ++ ['0'] else ds) power
    String.ofList (if s then '-' :: body else body)

end Binary64

end Runbook
