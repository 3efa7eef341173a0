import Runbook.Value

/-!
# Comparing values

Numbers of every kind compare by their exact value, and a truth value inside a container counts as 0 or
1. Texts compare by code point, sequences item by item, date-times with an offset by the instant they
denote. A comparison fails if it meets a decimal that must not be compared.

Items of containers are not compared if they are one and the same. Only a NaN shows the difference, as
every other value is equal to itself.

* `Value.equal`: equality by value, with values of several kinds equal.
* `Value.equalItem`: equality as items of containers have it.
* `Value.strictEqual`: equality at the top only between values of one kind, numbers being one kind.
* `Value.less` and `Value.greater`: the order, in either direction; two values that have none are neither.
-/

namespace Runbook

/-- A decimal that is not a number was compared. -/
inductive NotComparable where
  | notANumber
  deriving DecidableEq, Repr

namespace Value

/-- Whether a value is a number; truth values are not. -/
def isNumber : Value → Bool
  | int _ | float _ | decimal _ => true
  | _ => false

/-- The point of the rational line that a number or a truth value stands for. The outer `none` tells
that the value is neither, the inner one that it is not a number. -/
def point? : Value → Option (Option Extended)
  | bool b => some (some (.finite (if b then 1 else 0)))
  | int n => some (some (.finite n))
  | float x => some x.toExtended?
  | decimal d => some d.toExtended?
  | _ => none

/-- Whether the value is a decimal that fails every comparison. -/
def isSignaling : Value → Bool
  | decimal (.nan signaling ..) => signaling
  | _ => false

/-- Whether the value is a decimal. -/
def isDecimal : Value → Bool
  | decimal _ => true
  | _ => false

/-- Equality of two numbers or truth values by value. -/
def equalPoints (a b : Value) (p q : Option Extended) : Except NotComparable Bool :=
  if a.isSignaling || b.isSignaling then .error .notANumber
  else .ok (match p, q with
    | some x, some y => x = y
    | _, _ => false)

/-- The order of two numbers or truth values by value. A decimal does not compare with what is not a
number; binary numbers and integers merely have no order then. -/
def lessPoints (a b : Value) (p q : Option Extended) : Except NotComparable Bool :=
  match p, q with
  | some x, some y => .ok (x.lt y)
  | _, _ => if a.isDecimal || b.isDecimal then .error .notANumber else .ok false

/-- Whether two date-times are the same moment: both with an offset, or neither. -/
def sameMoment (s t : DateTime) : Bool :=
  match s.instant?, t.instant? with
  | some a, some b => a == b
  | none, none => s.wallClock == t.wallClock
  | _, _ => false

/-- Whether one date-time is before another; one with an offset has no order with one without. -/
def earlier (s t : DateTime) : Bool :=
  match s.instant?, t.instant? with
  | some a, some b => decide (a < b)
  | none, none => decide (s.wallClock < t.wallClock)
  | _, _ => false

/-- The conjunction that does not look at the second side if the first is false. -/
def both (p : Except NotComparable Bool) (q : Unit → Except NotComparable Bool) : Except NotComparable Bool :=
  match p with
  | .ok true => q ()
  | other => other

/-- Whether two values are one and the same NaN. -/
def isSameNaN : Value → Value → Bool
  | float (.nan mark), float (.nan mark') => mark == mark'
  | decimal (.nan signaling negative payload mark), decimal (.nan signaling' negative' payload' mark') =>
    (signaling, negative, payload, mark) == (signaling', negative', payload', mark')
  | _, _ => false

/-- The outcome for two items of containers, from that of their comparison. -/
def orSame (a b : Value) (compared : Except NotComparable Bool) : Except NotComparable Bool :=
  if a.isSameNaN b then .ok true else compared

mutual

/-- Whether two values are equal by value. Lists of two lengths differ whatever they hold; tuples are compared
item by item. -/
def equal : Value → Value → Except NotComparable Bool
  | null, b => .ok (match b with | null => true | _ => false)
  | str s, b => .ok (match b with | str t => s == t | _ => false)
  | bytes s, b => .ok (match b with | bytes t => s == t | _ => false)
  | date d, b => .ok (match b with | date e => d == e | _ => false)
  | dateTime s, b => .ok (match b with | dateTime t => sameMoment s t | _ => false)
  | list xs, b => match b with
    | list ys => if xs.length = ys.length then equalItems xs ys else .ok false
    | _ => .ok false
  | tuple xs, b => match b with
    | tuple ys => equalItems xs ys
    | _ => .ok false
  | set xs, b => match b with
    | set ys => if xs.length = ys.length then .ok (allIn xs ys) else .ok false
    | _ => .ok false
  | dict es, b => match b with
    | dict fs => if es.length = fs.length then equalEntries es fs else .ok false
    | _ => .ok false
  | a, b => match a.point?, b.point? with
    | some p, some q => equalPoints a b p q
    | _, _ => .ok false

/-- Whether two sequences have equal items; the first items that differ settle it, or else the lengths. -/
def equalItems : List Value → List Value → Except NotComparable Bool
  | x :: xs, y :: ys => both (orSame x y (equal x y)) fun _ => equalItems xs ys
  | [], [] => .ok true
  | _, _ => .ok false

/-- Whether every value has an equal one in the other list. -/
def allIn : List Value → List Value → Bool
  | [], _ => true
  | x :: xs, ys => (ys.any fun y => orSame x y (equal x y) matches .ok true) && allIn xs ys

/-- Whether every entry has an equal key with an equal value in the other dictionary. -/
def equalEntries : List (Value × Value) → List (Value × Value) → Except NotComparable Bool
  | [], _ => .ok true
  | (k, v) :: es, fs =>
    match fs.find? fun f => orSame k f.1 (equal k f.1) matches .ok true with
    | none => .ok false
    | some f => both (orSame v f.2 (equal v f.2)) fun _ => equalEntries es fs

end

/-- Whether two values are equal as items of containers are: one and the same, or equal by value. -/
def equalItem (a b : Value) : Except NotComparable Bool := orSame a b (equal a b)

/-- Whether a value is in a list of values, up to equality. -/
def elem (x : Value) (xs : List Value) : Bool := xs.any fun y => equalItem x y matches .ok true

/-- The order of byte strings. -/
def lessBytes : List UInt8 → List UInt8 → Bool
  | _, [] => false
  | [], _ :: _ => true
  | x :: xs, y :: ys => x < y || (x == y && lessBytes xs ys)

/-- Whether the first of two values that are no sequences is less than the second. -/
def lessPlain : Value → Value → Except NotComparable Bool
  | str s, b => .ok (match b with | str t => decide (s < t) | _ => false)
  | bytes s, b => .ok (match b with | bytes t => lessBytes s t | _ => false)
  | date d, b => .ok (match b with | date e => decide (d.ordinal < e.ordinal) | _ => false)
  | dateTime s, b => .ok (match b with | dateTime t => earlier s t | _ => false)
  | set xs, b => .ok (match b with
    | set ys => decide (xs.length < ys.length) && allIn xs ys
    | _ => false)
  | a, b => match a.point?, b.point? with
    | some p, some q => lessPoints a b p q
    | _, _ => .ok false

/-- The two ways in which one value can lie beside another. -/
inductive Direction where
  | ascending
  | descending
  deriving DecidableEq, Repr

/-- Whether two values that are no sequences stand in the order of a direction. -/
def plainInOrder : Direction → Value → Value → Except NotComparable Bool
  | .ascending, a, b => lessPlain a b
  | .descending, a, b => lessPlain b a

mutual

/-- Whether two values stand in the order of a direction; values that have no order do not. -/
def inOrder (direction : Direction) : Value → Value → Except NotComparable Bool
  | list xs, b => match b with
    | list ys => itemsInOrder direction xs ys
    | _ => .ok false
  | tuple xs, b => match b with
    | tuple ys => itemsInOrder direction xs ys
    | _ => .ok false
  | a, b => plainInOrder direction a b

/-- The order of the first items that differ; a list that the other one goes on from is less. -/
def itemsInOrder (direction : Direction) : List Value → List Value → Except NotComparable Bool
  | [], [] => .ok false
  | [], _ :: _ => .ok (direction = .ascending)
  | _ :: _, [] => .ok (direction = .descending)
  | x :: xs, y :: ys =>
    match equalItem x y with
    | .error e => .error e
    | .ok true => itemsInOrder direction xs ys
    | .ok false => inOrder direction x y

end

/-- Whether the first value is less than the second; values that have no order are not. -/
def less (a b : Value) : Except NotComparable Bool := inOrder .ascending a b

/-- Whether the first value is greater than the second; values that have no order are not. -/
def greater (a b : Value) : Except NotComparable Bool := inOrder .descending a b

/-- The kinds of values that the comparison at the top tells apart. -/
inductive Kind where
  | null | bool | int | float | decimal | str | bytes | date | dateTime | list | tuple | set | dict
  deriving DecidableEq, Repr

/-- The kind of a value. -/
def kind : Value → Kind
  | null => .null
  | bool _ => .bool
  | int _ => .int
  | float _ => .float
  | decimal _ => .decimal
  | str _ => .str
  | bytes _ => .bytes
  | date _ => .date
  | dateTime _ => .dateTime
  | list _ => .list
  | tuple _ => .tuple
  | set _ => .set
  | dict _ => .dict

/-- Equality with no crossing of kinds at the top: two numbers are equal by value, other values only
to values of their own kind. -/
def strictEqual (a b : Value) : Except NotComparable Bool :=
  if a.isNumber && b.isNumber then equal a b
  else if a.kind ≠ b.kind then .ok false
  else equal a b

end Value

end Runbook
