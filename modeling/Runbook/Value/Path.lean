import Runbook.Value

/-!
# Paths into values

A path such as `order.lines.0.sku` enters a dictionary by key and a list or tuple by index. What cannot
be entered yields null.

* `Value.resolve`: the value at a path.
-/

namespace Runbook

/-- An index of more digits than can be read as a number. -/
structure IndexTooLong where
  digits : Nat
  deriving DecidableEq, Repr

namespace Value

/-- The longest text of digits that is read as a number. -/
def maxIndexDigits : Nat := 4300

/-- The item of a list that a path segment selects. -/
def item (items : List Value) (segment : List Char) : Except IndexTooLong (Option Value) :=
  match Text.decimalNumber? segment with
  | none => .ok none
  | some n => if maxIndexDigits < segment.length then .error ⟨segment.length⟩ else .ok items[n]?

/-- The value that one segment of a path leads to, if there is one. -/
def enter (v : Value) (segment : List Char) : Except IndexTooLong (Option Value) :=
  match v with
  | dict es => .ok (Entries.get? es (String.ofList segment))
  | list xs => item xs segment
  | tuple xs => item xs segment
  | _ => .ok none

/-- The value that a list of segments leads to, null if one of them cannot be entered. -/
def follow (v : Value) : List (List Char) → Except IndexTooLong Value
  | [] => .ok v
  | segment :: rest =>
    match v.enter segment with
    | .error e => .error e
    | .ok none => .ok null
    | .ok (some w) => w.follow rest

/-- The value at a path; the empty path leads nowhere. -/
def resolve (v : Value) (path : String) : Except IndexTooLong Value :=
  if path.isEmpty then .ok null else v.follow (Text.splitChars '.' path.toList)

end Value

end Runbook
