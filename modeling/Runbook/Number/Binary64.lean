/-!
# Binary floating-point numbers

A number of the binary64 format, kept as the exact dyadic rational it stands for. Every operation is
"the exact result, rounded to the nearest representable number, a tie to the even mantissa", so it is
computed on integers and can be reasoned about through `Binary64.toRat?`.

A NaN equals nothing by value, not even itself, but there may be several of them, and one is told from another
by its mark: a NaN that is held in two places has the same mark in both.

* `Binary64.ofRatio` rounds a quotient of natural numbers.
* `Binary64.add`, `sub`, `mul`, `div` are correctly rounded.
* `Binary64.compare?` orders by value; nothing compares with a NaN.
-/

namespace Runbook

/-- A binary64 number: `mantissa * 2 ^ exponent` with a sign, or one of the special values. -/
inductive Binary64 where
  | nan (mark : Nat)
  | inf (negative : Bool)
  | finite (negative : Bool) (mantissa : Nat) (exponent : Int)
  deriving DecidableEq, Repr, Inhabited

namespace Binary64

/-- The NaN of an operation that has no result. -/
def noResult : Binary64 := nan 0

/-- The exponent of the least positive number. -/
def minExponent : Int := -1074

/-- The greatest exponent of a finite number whose mantissa has 53 bits. -/
def maxExponent : Int := 971

/-- A signed zero. -/
def zero (negative : Bool) : Binary64 := finite negative 0 minExponent

/-- `num / den` rounded to an integer, a tie to the even neighbour. -/
def roundHalfEven (num den : Nat) : Nat :=
  let q := num / den
  let r := num % den
  if r * 2 < den then q
  else if den < r * 2 then q + 1
  else if q % 2 = 0 then q else q + 1

/-- The pair `num * 2 ^ (-e)` over `den`, with no negative power. -/
def scaleDown (num den : Nat) (e : Int) : Nat × Nat :=
  if 0 ≤ e then (num, den * Nat.pow 2 e.toNat) else (num * Nat.pow 2 (-e).toNat, den)

/-- The exponent at which a positive quotient has a 53-bit mantissa, or the least exponent. -/
def exponentOf (num den : Nat) : Int :=
  let guess : Int := (Nat.log2 num : Int) - Nat.log2 den - 52
  let (n, d) := scaleDown num den guess
  max minExponent (if n < d * Nat.pow 2 52 then guess - 1 else guess)

/-- The number nearest to `num / den` with the given sign. -/
def ofRatio (negative : Bool) (num den : Nat) : Binary64 :=
  if num = 0 then zero negative
  else
    let e := exponentOf num den
    let (n, d) := scaleDown num den e
    let m := roundHalfEven n d
    let (m, e) := if m = Nat.pow 2 53 then (Nat.pow 2 52, e + 1) else (m, e)
    if maxExponent < e then inf negative else finite negative m e

/-- The number nearest to an integer. -/
def ofInt (n : Int) : Binary64 := ofRatio (n < 0) n.natAbs 1

/-- The number nearest to a natural number. -/
def ofNat (n : Nat) : Binary64 := ofRatio false n 1

instance (n : Nat) : OfNat Binary64 n := ⟨ofNat n⟩

/-- The number nearest to a rational; `negativeZero` is the sign of a zero result. -/
def ofRat (q : Rat) (negativeZero : Bool) : Binary64 :=
  if q.num = 0 then zero negativeZero else ofRatio (q.num < 0) q.num.natAbs q.den

/-- The exact value `mantissa * 2 ^ exponent` of a finite number. -/
def value (negative : Bool) (mantissa : Nat) (exponent : Int) : Rat :=
  let magnitude : Rat :=
    if 0 ≤ exponent then ((mantissa * Nat.pow 2 exponent.toNat : Nat) : Rat)
    else mkRat mantissa (Nat.pow 2 (-exponent).toNat)
  if negative then -magnitude else magnitude

/-- The exact value, if the number is finite. -/
def toRat? : Binary64 → Option Rat
  | finite s m e => some (value s m e)
  | _ => none

/-- Whether the sign bit is set; a NaN has none. -/
def isNegative : Binary64 → Bool
  | nan _ => false
  | inf s => s
  | finite s _ _ => s

def isNaN : Binary64 → Bool
  | nan _ => true
  | _ => false

def isFinite : Binary64 → Bool
  | finite .. => true
  | _ => false

def isZero : Binary64 → Bool
  | finite _ 0 _ => true
  | _ => false

def neg : Binary64 → Binary64
  | nan _ => noResult
  | inf s => inf (!s)
  | finite s m e => finite (!s) m e

/-- The sum, rounded. A zero sum is negative only if both terms are. -/
def add (x y : Binary64) : Binary64 :=
  match x, y with
  | nan _, _ => noResult
  | _, nan _ => noResult
  | inf s, inf t => if s = t then inf s else noResult
  | inf s, finite .. => inf s
  | finite .., inf t => inf t
  | finite s m e, finite t n f => ofRat (value s m e + value t n f) (s && t)

/-- The difference, rounded. -/
def sub (x y : Binary64) : Binary64 := x.add y.neg

/-- The product, rounded. -/
def mul (x y : Binary64) : Binary64 :=
  match x, y with
  | nan _, _ => noResult
  | _, nan _ => noResult
  | inf s, y => if y.isZero then noResult else inf (s != y.isNegative)
  | x, inf t => if x.isZero then noResult else inf (t != x.isNegative)
  | finite s m e, finite t n f => ofRat (value s m e * value t n f) (s != t)

/-- The quotient by a divisor other than zero, rounded. -/
def div (x y : Binary64) : Binary64 :=
  match x, y with
  | nan _, _ => noResult
  | _, nan _ => noResult
  | inf _, inf _ => noResult
  | inf s, y => inf (s != y.isNegative)
  | x, inf t => zero (t != x.isNegative)
  | finite s m e, finite t n f =>
    if n = 0 then (if m = 0 then noResult else inf (s != t))
    else ofRat (value s m e / value t n f) (s != t)

/-- The order by value; `none` if one side is a NaN. -/
def compare? (x y : Binary64) : Option Ordering :=
  match x, y with
  | nan _, _ => none
  | _, nan _ => none
  | inf s, inf t => some (compare t s)
  | inf s, finite .. => some (if s then .lt else .gt)
  | finite .., inf t => some (if t then .gt else .lt)
  | finite s m e, finite t n f =>
    let a := value s m e
    let b := value t n f
    some (if a < b then .lt else if a = b then .eq else .gt)

/-- Whether `x` is less than `y` by value. -/
def lt (x y : Binary64) : Bool := x.compare? y == some .lt

/-- Whether `x` is at most `y` by value. -/
def le (x y : Binary64) : Bool := x.compare? y == some .lt || x.compare? y == some .eq

/-- The first argument, unless the second is less. -/
def min (x y : Binary64) : Binary64 := if y.lt x then y else x

/-- The first argument, unless the second is greater. -/
def max (x y : Binary64) : Binary64 := if x.lt y then y else x

/-- The integer part of a finite number, toward zero. -/
def truncate? : Binary64 → Option Int
  | finite s m e =>
    let n : Int := if 0 ≤ e then ((m * Nat.pow 2 e.toNat : Nat) : Int) else ((m / Nat.pow 2 (-e).toNat : Nat) : Int)
    some (if s then -n else n)
  | _ => none

/-- The integer nearest to a finite number, a tie to the even one. -/
def round? : Binary64 → Option Int
  | finite s m e =>
    let n : Int := if 0 ≤ e then ((m * Nat.pow 2 e.toNat : Nat) : Int)
      else (roundHalfEven m (Nat.pow 2 (-e).toNat) : Int)
    some (if s then -n else n)
  | _ => none

/-- Whether the number is finite and has no fraction. -/
def isIntegral : Binary64 → Bool
  | finite _ m e => 0 ≤ e || m % Nat.pow 2 (-e).toNat == 0
  | _ => false

end Binary64

/-- The NaN of JSON, the same one in all that is read. -/
def Json.nan : Binary64 := .nan 1

end Runbook
