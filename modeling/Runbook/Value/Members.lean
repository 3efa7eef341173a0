import Runbook.Value.Kind

/-!
# Values as sequences and dictionaries

Stored data is loosely typed, so a value may not have the shape that is asked for.

* `Value.members`: what a value holds, one after the other: items, keys, characters or bytes.
* `Value.paired`: a value as a dictionary; a sequence of pairs makes one.
* `Value.mapping`: a value as a dictionary, which it must be.
-/

namespace Runbook

/-- Why a value was not taken for a sequence or a dictionary. -/
inductive WrongShape where
  | noMembers (kind : Value.Kind)
  | notADictionary (kind : Value.Kind)
  /-- A member is no pair; the length is that of the member, if it has one. -/
  | notAPair (position : Nat) (length : Option Nat)
  | notAKey (kind : Value.Kind)
  deriving DecidableEq, Repr

/-- The message about a value of the wrong shape. -/
def WrongShape.message : WrongShape → String
  | noMembers kind => "'" ++ kind.name ++ "' object is not iterable"
  | notADictionary kind => "'" ++ kind.name ++ "' object is not a mapping"
  | notAPair position none =>
    "cannot convert dictionary update sequence element #" ++ String.ofList (Digits.ofNat position) ++
      " to a sequence"
  | notAPair position (some length) =>
    "dictionary update sequence element #" ++ String.ofList (Digits.ofNat position) ++ " has length " ++
      String.ofList (Digits.ofNat length) ++ "; 2 is required"
  | notAKey kind => "unhashable type: '" ++ kind.name ++ "'"

namespace Value

/-- What a value holds, one after the other. -/
def members : Value → Except WrongShape (List Value)
  | list xs | tuple xs | set xs => .ok xs
  | dict es => .ok (es.map (·.1))
  | str s => .ok (s.toList.map fun c => .str (String.singleton c))
  | bytes bs => .ok (bs.map fun b => .int b.toNat)
  | v => .error (.noMembers v.kind)

/-- The entries that a list of pairs adds to a dictionary; the pairs are counted from `position` on. -/
def addPairs (position : Nat) (es : Entries) : List Value → Except WrongShape Entries
  | [] => .ok es
  | pair :: rest =>
    match pair.members with
    | .ok [k, v] => match k.unkeyable? with
      | some kind => .error (.notAKey kind)
      | none => addPairs (position + 1) (putKey es k v) rest
    | .ok parts => .error (.notAPair position (some parts.length))
    | .error _ => .error (.notAPair position none)

/-- The entries of a dictionary, or of the one that a sequence of pairs makes. -/
def paired : Value → Except WrongShape Entries
  | dict es => .ok es
  | v => v.members.bind (addPairs 0 [])

/-- The entries of a dictionary. -/
def mapping : Value → Except WrongShape Entries
  | dict es => .ok es
  | v => .error (.notADictionary v.kind)

end Value

end Runbook
