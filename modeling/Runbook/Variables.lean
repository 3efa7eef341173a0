import Runbook.Failure

/-!
# Variables

The variables of a run. They are kept in the order in which they were first set; the last value that was set
counts.

* `Variables.recorded`: the form in which they are recorded.
* `Variables.append`: adds an item to a list found among them.
-/

namespace Runbook

/-- The variables of a run, by name. -/
abbrev Variables := Entries

namespace Value

/-- The list of values with a new one at the end, if the value is a list. -/
def append (v item : Value) : Value :=
  match v with
  | list xs => list (xs ++ [item])
  | v => v

mutual

/-- A value with the list at the end of a path extended by an item. -/
def appendAt (v item : Value) (path : List (List Char)) : Value :=
  match path with
  | [] => v.append item
  | segment :: rest =>
    match v with
    | dict es => dict (appendUnder es item (String.ofList segment) rest)
    | list xs => list (appendItem xs item (Text.decimalNumber? segment) rest)
    | tuple xs => tuple (appendItem xs item (Text.decimalNumber? segment) rest)
    | v => v

/-- The entries of a dictionary with the list below a key extended. -/
def appendUnder (es : List (Value × Value)) (item : Value) (key : String) (path : List (List Char)) :
    List (Value × Value) :=
  match es with
  | [] => []
  | (k, v) :: rest =>
    if k.isStr key then (k, appendAt v item path) :: rest else (k, v) :: appendUnder rest item key path

/-- The items of a list with the list below an index extended. -/
def appendItem (xs : List Value) (item : Value) (index : Option Nat) (path : List (List Char)) :
    List Value :=
  match xs, index with
  | x :: rest, some 0 => appendAt x item path :: rest
  | x :: rest, some (n + 1) => x :: appendItem rest item (some n) path
  | xs, _ => xs

end

end Value

namespace Variables

/-- The value at a path. -/
def lookup (vs : Variables) (path : Value) : Except Failure Value := (Value.dict vs).lookup path

/-- The form in which the variables are recorded. -/
def recorded (vs : Variables) : Except Failure Value := (Value.dict vs).recorded

/-- The variables overridden and followed by others. -/
def merge (vs others : Variables) : Variables := others.foldl (fun acc (k, v) => Value.putKey acc k v) vs

/-- The variables with an item added to the list at a path. -/
def append (vs : Variables) (path : String) (item : Value) : Variables :=
  match (Value.dict vs).appendAt item (Text.splitChars '.' path.toList) with
  | .dict es => es
  | _ => vs

end Variables

end Runbook
