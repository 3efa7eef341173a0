import Runbook.Failure
import Runbook.Number.Rounded

/-!
# Columns

A column of a table keeps values of one kind. A value that is written goes three ways: it may be of no use for
the kind, the database may have no form for it, or it is kept in the form in which it is read back.

* `Column.Kind.convert`: a value made fit for a kind.
* `Column.Kind.accept`: refuses what the database has no form for.
* `Column.Kind.keep`: the form in which a value is read back.
-/

namespace Runbook

/-- What a column keeps. -/
inductive Column.Kind where
  | text
  | integer
  | truth
  | amount
  | moment
  | json
  deriving DecidableEq, Repr

/-- What a new row has in a column for which nothing is given. -/
inductive Column.Default where
  | nothing
  | now
  | freshId
  | value (v : Value)

/-- A column. A required one is never null. -/
structure Column where
  name : String
  kind : Column.Kind := .text
  required : Bool := false
  default : Column.Default := .nothing

/-- What a column of a row holds: a value as it is read back, or the time of the database when the row was
written. -/
inductive Cell where
  | value (v : Value)
  | now

/-- The value of a cell, if it is no time of the database. -/
def Cell.value? : Cell → Option Value
  | value v => some v
  | now => none

namespace Column.Kind

/-! ## Making a value fit -/

/-- A statement that failed before it reached the database. -/
def unfit (cause message : String) : Failure :=
  .database "StatementError" ("(builtins." ++ cause ++ ") " ++ message)

/-- The digits of a number text without underscores, which may stand between digits only. -/
def withoutUnderscores? : (previous : Char) → List Char → Option (List Char)
  | previous, '_' :: c :: rest =>
    if previous.isDigit && c.isDigit then (withoutUnderscores? c rest).map (c :: ·) else none
  | _, ['_'] => none
  | _, c :: rest => (withoutUnderscores? c rest).map (c :: ·)
  | _, [] => some []

/-- The number of a text, between blanks. -/
def numberOfText? (s : String) : Option Binary64 :=
  (withoutUnderscores? ' ' (Text.trimBy Text.isBlank s.toList)).bind fun cs => Binary64.read? (String.ofList cs)

/-- An amount as a binary number. -/
def amountOf : Value → Except Failure Value
  | .null => .ok .null
  | .float x => .ok (.float x)
  | .bool b => .ok (.float (if b then 1 else 0))
  | .int n =>
    if (Binary64.ofInt n).isFinite then .ok (.float (Binary64.ofInt n))
    else .error (unfit "OverflowError" "int too large to convert to float")
  | .decimal d => match d.toBinary64? with
    | some x => .ok (.float x)
    | none => .error (unfit "ValueError" "cannot convert signaling NaN to float")
  | .str s => match numberOfText? s with
    | some x => .ok (.float x)
    | none => .error (unfit "ValueError" ("could not convert string to float: " ++ Text.quote s))
  | v => .error (unfit "TypeError"
      ("float() argument must be a string or a real number, not '" ++ v.kind.name ++ "'"))

/-- Whether a value equals zero or one. -/
def truthOf? (v : Value) : Option Bool :=
  if Value.equal v (.int 0) matches .ok true then some false
  else if Value.equal v (.int 1) matches .ok true then some true
  else none

/-- A truth value. -/
def truthOf (v : Value) : Except Failure Value :=
  match v with
  | .null => .ok .null
  | v =>
    match v.unkeyable?, truthOf? v, v with
    | some kind, _, _ => .error (unfit "TypeError" ("unhashable type: '" ++ kind.name ++ "'"))
    | none, some b, _ => .ok (.bool b)
    | none, none, .int n =>
      .error (unfit "ValueError" ("Value " ++ (Value.int n).literal ++ " is not None, True, or False"))
    | none, none, v => .error (unfit "TypeError" ("Not a boolean value: " ++ v.literal))

/-- A moment without its offset; a date is its midnight. -/
def momentOf : Value → Except Failure Value
  | .null => .ok .null
  | .dateTime t => .ok (.dateTime t.withoutOffset)
  | .date d => .ok (.dateTime ⟨d, 0, 0, 0, 0, none⟩)
  | _ => .error (unfit "TypeError" "SQLite DateTime type only accepts Python datetime and date objects as input.")

/-- A value made fit for a column of the kind. -/
def convert (k : Kind) (v : Value) : Except Failure Value :=
  match k with
  | text | integer => .ok v
  | truth => truthOf v
  | amount => amountOf v
  | moment => momentOf v
  | json => v.jsonForm.mapError fun e => unfit "TypeError" e.message

/-! ## What the database has a form for -/

/-- The integers that the database has a form for. -/
def fits (n : Int) : Bool := decide (Int64.minValue.toInt ≤ n ∧ n ≤ Int64.maxValue.toInt)

/-- Refuses a value that the database has no form for; `place` is its number in the statement. -/
def accept (place : Nat) (k : Kind) (v : Value) : Except Failure Unit :=
  match k with
  | text | integer =>
    match v with
    | .int n =>
      if fits n then .ok ()
      else .error (.reported "OverflowError" "Python int too large to convert to SQLite INTEGER" none)
    | .decimal _ | .list _ | .tuple _ | .set _ | .dict _ =>
      .error (.database "ProgrammingError" ("(sqlite3.ProgrammingError) Error binding parameter " ++
        String.ofList (Digits.ofNat place) ++ ": type '" ++ v.kind.name ++ "' is not supported"))
    | _ => .ok ()
  | _ => .ok ()

/-! ## What is read back -/

/-- The text that a value is kept as in a column of texts. -/
def textOf : Value → Value
  | .int n => .str (String.ofList (Digits.ofInt n))
  | .bool b => .str (if b then "1" else "0")
  | .float (.nan _) => .null
  | .float x => .str x.generalText
  | .dateTime t => .str (t.isoTextWith ' ')
  | .date d => .str d.isoText
  | v => v

/-- A number is kept as an integer if it is one within the range of the integers. -/
def numberOf : Binary64 → Value
  | .nan _ => .null
  | x => match x.isIntegral, x.truncate? with
    | true, some n => if decide (Int64.minValue.toInt < n ∧ n < Int64.maxValue.toInt) then .int n else .float x
    | _, _ => .float x

/-- Blanks around a number text of the database. -/
def isGap (c : Char) : Bool := c == ' ' || (9 ≤ c.toNat && c.toNat ≤ 13)

/-- The number that a text is kept as in a column of integers, the text itself if it is none. -/
def numberOfDigits (s : String) : Value :=
  let (negative, cs) := Numeral.readSign (Text.trimBy isGap s.toList)
  let whole : Int := if negative then -(Digits.toNat cs : Int) else Digits.toNat cs
  if !cs.isEmpty && cs.all Char.isDigit && fits whole then .int whole
  else match Numeral.read? cs with
    | some (digits, power) => numberOf (Binary64.ofDecimal negative digits power)
    | none => .str s

/-- The form of a value in a column of integers. -/
def integerOf : Value → Value
  | .bool b => .int (if b then 1 else 0)
  | .float x => numberOf x
  | .str s => numberOfDigits s
  | .dateTime t => .str (t.isoTextWith ' ')
  | .date d => .str d.isoText
  | v => v

/-- An amount has two decimal places. A zero is kept without a sign. -/
def placesOf : Value → Value
  | .float (.nan _) => .null
  | .float x => .decimal (Decimal.ofBinary 2 (if x.isZero then 0 else x))
  | v => v

/-- The form in which a fit value is read back. -/
def keep (k : Kind) (v : Value) : Value :=
  match k with
  | text => textOf v
  | integer => integerOf v
  | amount => placesOf v
  | truth | moment | json => v

end Column.Kind

end Runbook
