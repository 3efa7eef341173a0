import Runbook.Value
import Runbook.Text.Quoted

/-!
# Texts of values

* `Value.literal`: the form in which a value appears inside another one, with quotes around texts.
* `Value.text`: the form in which a value stands alone; a text is itself.
* `Value.plainText`: the form that `contains` searches in. Null is empty, an integral float has no
  fraction, and lists join their items with commas at every depth.
-/

namespace Runbook

/-- A span of time as its days, seconds and microseconds. -/
def durationLiteral (microseconds : Int) : String :=
  let days := Int.fdiv microseconds 86400000000
  let rest := (Int.fmod microseconds 86400000000).toNat
  let part (name : String) (n : Int) : List String :=
    if n = 0 then [] else [name ++ "=" ++ String.ofList (Digits.ofInt n)]
  let parts := part "days" days ++ part "seconds" (rest / 1000000 : Nat) ++
    part "microseconds" (rest % 1000000 : Nat)
  "datetime.timedelta(" ++ (if parts.isEmpty then "0" else ", ".intercalate parts) ++ ")"

/-- A date-time written with the names of its type; seconds and microseconds are left out if zero. -/
def DateTime.literal (t : DateTime) : String :=
  let fields := [t.date.year, t.date.month, t.date.day, t.hour, t.minute] ++
    (if t.microsecond ≠ 0 then [t.second, t.microsecond] else if t.second ≠ 0 then [t.second] else [])
  let zone := match t.offset with
    | none => []
    | some o =>
      if o = 0 then ["tzinfo=datetime.timezone.utc"]
      else ["tzinfo=datetime.timezone(" ++ durationLiteral o ++ ")"]
  "datetime.datetime(" ++ ", ".intercalate (fields.map (fun n => String.ofList (Digits.ofNat n)) ++ zone) ++ ")"

/-- A date written with the name of its type. -/
def Date.literal (d : Date) : String :=
  "datetime.date(" ++ ", ".intercalate ([d.year, d.month, d.day].map fun n =>
    String.ofList (Digits.ofNat n)) ++ ")"

namespace Value

mutual

/-- The form of a value inside another one. -/
def literal : Value → String
  | null => "None"
  | bool b => if b then "True" else "False"
  | int n => String.ofList (Digits.ofInt n)
  | float x => x.toText
  | decimal d => "Decimal('" ++ d.toText ++ "')"
  | str s => Text.quote s
  | bytes bs => Text.quoteBytes bs
  | date d => d.literal
  | dateTime t => t.literal
  | list xs => "[" ++ ", ".intercalate (literals xs) ++ "]"
  | tuple [x] => "(" ++ literal x ++ ",)"
  | tuple xs => "(" ++ ", ".intercalate (literals xs) ++ ")"
  | set [] => "set()"
  | set xs => "\x7b" ++ ", ".intercalate (literals xs) ++ "\x7d"
  | dict es => "\x7b" ++ ", ".intercalate (entryLiterals es) ++ "\x7d"

/-- The forms of several values. -/
def literals : List Value → List String
  | [] => []
  | x :: xs => literal x :: literals xs

/-- The entries of a dictionary, a colon after each key. -/
def entryLiterals : List (Value × Value) → List String
  | [] => []
  | (k, v) :: es => (literal k ++ ": " ++ literal v) :: entryLiterals es

end

/-- The form of a value that stands alone. -/
def text : Value → String
  | str s => s
  | decimal d => d.toText
  | date d => d.isoText
  | dateTime t => t.isoTextWith ' '
  | v => v.literal

mutual

/-- The form that `contains` compares. -/
def plainText : Value → String
  | null => ""
  | bool b => if b then "true" else "false"
  | float x =>
    match x.isIntegral, x.truncate? with
    | true, some n => String.ofList (Digits.ofInt n)
    | _, _ => x.toText
  | list xs => ",".intercalate (plainTexts xs)
  | tuple xs => ",".intercalate (plainTexts xs)
  | v => v.text

/-- The comparison forms of several values. -/
def plainTexts : List Value → List String
  | [] => []
  | x :: xs => plainText x :: plainTexts xs

end

end Value

end Runbook
