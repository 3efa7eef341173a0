import Runbook.Number.Binary64

/-!
# Decimal digits of numbers

* `Digits.ofNat` and `Digits.toNat`: the decimal digits of a natural number, as characters.
* `Binary64.shortest`: the fewest significant digits that read back as the same number, and of those
  the nearest to it.
* `Binary64.toText`: those digits, positional from `1e-4` up to `1e16` and with an exponent beyond.
* `Binary64.ofDecimal`: the number nearest to `digits * 10 ^ power`.
* `Numeral.read?` and `Binary64.read?`: texts of numbers.
-/

namespace Runbook

namespace Digits

/-- The decimal digits of a natural number. -/
def ofNat (n : Nat) : List Char := Nat.toDigits 10 n

/-- The decimal digits of an integer, with a sign if it is negative. -/
def ofInt (n : Int) : List Char := if n < 0 then '-' :: ofNat n.natAbs else ofNat n.natAbs

/-- The value of an ASCII digit. -/
def value (c : Char) : Nat := c.toNat - '0'.toNat

/-- The number that a list of ASCII digits stands for. -/
def toNat (ds : List Char) : Nat := ds.foldl (fun n c => n * 10 + value c) 0

/-- `ds` with zeros in front up to the given width. -/
def pad (width : Nat) (ds : List Char) : List Char := List.replicate (width - ds.length) '0' ++ ds

/-- A natural number with zeros in front up to the given width. -/
def padded (width n : Nat) : List Char := pad width (ofNat n)

end Digits

namespace Numeral

/-- The digits at the front of a text and the rest of it. -/
def spanDigits (cs : List Char) : List Char × List Char := cs.span Char.isDigit

/-- A sign at the front of a text, and the rest of it. -/
def readSign : List Char → Bool × List Char
  | '-' :: cs => (true, cs)
  | '+' :: cs => (false, cs)
  | cs => (false, cs)

/-- A power of ten after its mark `e` or `E`; no text is the power zero. -/
def readPower : List Char → Option Int
  | [] => some 0
  | mark :: rest =>
    if mark = 'e' ∨ mark = 'E' then
      let (negative, ds) := readSign rest
      if ds.isEmpty || !ds.all Char.isDigit then none
      else some (if negative then -(Digits.toNat ds : Int) else Digits.toNat ds)
    else none

/-- An unsigned decimal, digits with at most one point and an optional power of ten, as its digits and
the power of ten of the last one. -/
def read? (cs : List Char) : Option (Nat × Int) :=
  let (whole, rest) := spanDigits cs
  let (fraction, rest) := match rest with
    | '.' :: rest => spanDigits rest
    | rest => ([], rest)
  if whole.isEmpty && fraction.isEmpty then none
  else (readPower rest).map fun power => (Digits.toNat (whole ++ fraction), power - fraction.length)

end Numeral

namespace Binary64

/-- The number nearest to `digits * 10 ^ power`. Powers far outside the format's range are cut off
first, as they can only give zero or infinity. -/
def ofDecimal (negative : Bool) (digits : Nat) (power : Int) : Binary64 :=
  if digits = 0 then zero negative
  else
    let magnitude : Int := power + (Digits.ofNat digits).length
    if 400 < magnitude then inf negative
    else if magnitude < -400 then zero negative
    else if 0 ≤ power then ofRatio negative (digits * Nat.pow 10 power.toNat) 1
    else ofRatio negative digits (Nat.pow 10 (-power).toNat)

/-- A positive finite number as a quotient of natural numbers. -/
def toRatio (mantissa : Nat) (exponent : Int) : Nat × Nat :=
  if 0 ≤ exponent then (mantissa * Nat.pow 2 exponent.toNat, 1) else (mantissa, Nat.pow 2 (-exponent).toNat)

/-- The power of ten of the leading digit of a positive quotient. -/
def leadingPower (num den : Nat) : Int :=
  if den ≤ num then (Digits.ofNat (num / den)).length - 1
  else
    -- the least `j` with `1 ≤ num / den * 10 ^ j`: the integer part of `den / num` tells it
    let j := (Digits.ofNat ((den - 1) / num)).length
    Int.negOfNat j

/-- Of the two `count`-digit decimals next to `num / den`, those that read back as `x`; the nearer one
first, and of two equally near the even one. Each comes as digits and the power of the last digit. -/
def candidates (x : Binary64) (num den : Nat) (power : Int) (count : Nat) : List (Nat × Int) :=
  let last : Int := power + 1 - count
  let (n, d) := if 0 ≤ last then (num, den * Nat.pow 10 last.toNat) else (num * Nat.pow 10 (-last).toNat, den)
  let low := n / d
  let rem := n % d
  let ordered :=
    if rem * 2 < d then [low, low + 1]
    else if d < rem * 2 then [low + 1, low]
    else if low % 2 = 0 then [low, low + 1] else [low + 1, low]
  (ordered.filter fun c => ofDecimal false c last = x).map (·, last)

/-- The fewest digits, and the power of ten of the last one, that read back as `x = num / den`; seventeen
digits always do. -/
def shortestFrom (x : Binary64) (num den : Nat) (power : Int) : (counts : List Nat) → Nat × Int
  | [] => (0, 0)
  | count :: rest =>
    match candidates x num den power count with
    | found :: _ => found
    | [] => shortestFrom x num den power rest

/-- The shortest decimal of a positive finite number: its digits and the power of ten of the first. -/
def shortest (mantissa : Nat) (exponent : Int) : List Char × Int :=
  let (num, den) := toRatio mantissa exponent
  let (digits, last) :=
    shortestFrom (finite false mantissa exponent) num den (leadingPower num den) (List.range' 1 17)
  let ds := Digits.ofNat digits
  let trimmed := (ds.reverse.dropWhile (· == '0')).reverse
  (trimmed, last + ds.length - 1)

/-- Digits with the point after the leading one moved by `power`; an integer keeps `.0`. -/
def positional (ds : List Char) (power : Int) : List Char :=
  if power < 0 then '0' :: '.' :: (List.replicate (-power - 1).toNat '0' ++ ds)
  else
    let whole := power.toNat + 1
    if ds.length ≤ whole then ds ++ List.replicate (whole - ds.length) '0' ++ ['.', '0']
    else ds.take whole ++ '.' :: ds.drop whole

/-- Digits with a power of ten of at least two digits and a sign. -/
def scientific (ds : List Char) (power : Int) : List Char :=
  let fraction := match ds with
    | [] => []
    | [d] => [d]
    | d :: rest => d :: '.' :: rest
  fraction ++ 'e' :: (if power < 0 then '-' else '+') :: Digits.padded 2 power.natAbs

/-- The text of a number: positional for leading powers from -4 to 15, with an exponent beyond. -/
def toText : Binary64 → String
  | nan _ => "nan"
  | inf s => if s then "-inf" else "inf"
  | finite s 0 _ => if s then "-0.0" else "0.0"
  | finite s m e =>
    let (ds, power) := shortest m e
    let body := if -4 ≤ power ∧ power < 16 then positional ds power else scientific ds power
    String.ofList (if s then '-' :: body else body)

/-- A number text: a sign, then a decimal or one of the words `inf`, `infinity` and `nan` in any case. -/
def read? (text : String) : Option Binary64 :=
  let (negative, cs) := Numeral.readSign text.toList
  let word := String.ofList (cs.map Char.toLower)
  if word = "inf" ∨ word = "infinity" then some (inf negative)
  else if word = "nan" then some noResult
  else (Numeral.read? cs).map fun (digits, power) => ofDecimal negative digits power

end Binary64

end Runbook
