import Runbook.Number.Digits

/-!
# Decimal numbers

A decimal number keeps its digits as they were written: `1.50` and `1.5` are different decimals of one
value. A NaN may be signaling, and a signaling one makes every comparison fail. One NaN is told from another
by its mark.

* `Decimal.read?` and `Decimal.toText`: the scientific text of a decimal.
* `Decimal.toBinary64?`: the nearest binary number.
-/

namespace Runbook

/-- A decimal: `coefficient * 10 ^ exponent` with a sign, or a special value. -/
inductive Decimal where
  | nan (signaling : Bool) (negative : Bool) (payload : Nat) (mark : Nat)
  | inf (negative : Bool)
  | finite (negative : Bool) (coefficient : Nat) (exponent : Int)
  deriving DecidableEq, Repr, Inhabited

namespace Decimal

/-- The exact value `coefficient * 10 ^ exponent` of a finite decimal. -/
def value (negative : Bool) (coefficient : Nat) (exponent : Int) : Rat :=
  let magnitude : Rat :=
    if 0 ≤ exponent then ((coefficient * Nat.pow 10 exponent.toNat : Nat) : Rat)
    else mkRat coefficient (Nat.pow 10 (-exponent).toNat)
  if negative then -magnitude else magnitude

/-- The exact value, if the decimal is finite. -/
def toRat? : Decimal → Option Rat
  | finite s c e => some (value s c e)
  | _ => none

def isZero : Decimal → Bool
  | finite _ 0 _ => true
  | _ => false

/-- A decimal with as many places as an integer has none. -/
def ofInt (n : Int) : Decimal := finite (n < 0) n.natAbs 0

/-- The digits with the point after the first `places` of them; zeros fill up on either side. -/
def withPoint (ds : List Char) (places : Int) : List Char :=
  if places ≤ 0 then '0' :: '.' :: (List.replicate (-places).toNat '0' ++ ds)
  else if (ds.length : Int) ≤ places then ds ++ List.replicate (places.toNat - ds.length) '0'
  else ds.take places.toNat ++ '.' :: ds.drop places.toNat

/-- The text of a decimal: plain digits unless the exponent is positive or more than six zeros would
follow the point, an exponent then. -/
def toText : Decimal → String
  | nan signaling s payload _ =>
    (if s then "-" else "") ++ (if signaling then "sNaN" else "NaN") ++
      (if payload = 0 then "" else String.ofList (Digits.ofNat payload))
  | inf s => if s then "-Infinity" else "Infinity"
  | finite s c e =>
    let ds := Digits.ofNat c
    let left : Int := e + ds.length
    let places : Int := if e ≤ 0 ∧ -6 < left then left else 1
    let power := left - places
    let mark := if power = 0 then [] else
      'E' :: (if power < 0 then '-' else '+') :: Digits.ofNat power.natAbs
    String.ofList ((if s then ['-'] else []) ++ withPoint ds places ++ mark)

/-- The payload of a NaN text, if it is made of digits. -/
def readPayload (cs : List Char) : Option Nat :=
  if cs.all Char.isDigit then some (Digits.toNat cs) else none

/-- Reads a decimal text. -/
def read? (text : String) : Option Decimal :=
  let (negative, cs) := Numeral.readSign text.toList
  match cs.map Char.toLower with
  | ['i', 'n', 'f'] | ['i', 'n', 'f', 'i', 'n', 'i', 't', 'y'] => some (inf negative)
  | 'n' :: 'a' :: 'n' :: rest => (readPayload rest).map (nan false negative · 0)
  | 's' :: 'n' :: 'a' :: 'n' :: rest => (readPayload rest).map (nan true negative · 0)
  | _ => (Numeral.read? cs).map fun (digits, power) => finite negative digits power

/-- The nearest binary number; a signaling NaN has none. -/
def toBinary64? : Decimal → Option Binary64
  | nan signaling .. => if signaling then none else some .noResult
  | inf s => some (.inf s)
  | finite s c e => some (Binary64.ofDecimal s c e)

end Decimal

end Runbook
