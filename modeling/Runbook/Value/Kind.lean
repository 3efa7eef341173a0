import Runbook.Value.Compare

/-!
# Kinds of values and their names

* `Value.Kind.name`: the name that messages use for a kind.
* `Value.unkeyable?`: the kind that keeps a value from being looked up as a key.
-/

namespace Runbook.Value

/-- The name of a kind inside its module. -/
def Kind.shortName : Kind → String
  | .null => "NoneType"
  | .bool => "bool"
  | .int => "int"
  | .float => "float"
  | .decimal => "Decimal"
  | .str => "str"
  | .bytes => "bytes"
  | .date => "date"
  | .dateTime => "datetime"
  | .list => "list"
  | .tuple => "tuple"
  | .set => "set"
  | .dict => "dict"

/-- The full name of a kind. -/
def Kind.name : Kind → String
  | .decimal => "decimal.Decimal"
  | .date => "datetime.date"
  | .dateTime => "datetime.datetime"
  | k => k.shortName

mutual

/-- The kind that keeps a value from being a key: lists, sets and dictionaries are no keys, nor is a
tuple that holds one. -/
def unkeyable? : Value → Option Kind
  | list _ => some .list
  | set _ => some .set
  | dict _ => some .dict
  | tuple xs => firstUnkeyable? xs
  | _ => none

/-- The first kind in a list that keeps a value from being a key. -/
def firstUnkeyable? : List Value → Option Kind
  | [] => none
  | x :: xs => (unkeyable? x).or (firstUnkeyable? xs)

end

/-- Adds an entry to a dictionary; an equal key that is there keeps its place and takes the value. -/
def putKey (es : Entries) (key v : Value) : Entries :=
  match es with
  | [] => [(key, v)]
  | (k, w) :: rest =>
    if Value.equalItem k key matches .ok true then (k, v) :: rest else (k, w) :: putKey rest key v

/-- The dictionary of a list of pairs, the last value of a key in the first one's place. -/
def dictOf (pairs : List (Value × Value)) : Value := .dict (pairs.foldl (fun es (k, v) => putKey es k v) [])

/-- The set of a list of values, the first of equal ones. -/
def setOf (items : List Value) : Value :=
  .set (items.foldl (fun acc x => if Value.elem x acc then acc else acc ++ [x]) [])

end Runbook.Value
