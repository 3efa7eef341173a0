import Runbook.Value.Kind
import Runbook.Text.Quoted

/-!
# Values as JSON

* `Value.jsonForm`: the value that remains of a value once it is written as JSON and read back. Tuples
  become lists, and keys become texts.
* `Value.jsonText`: the JSON text, with a space after each comma and colon and only ASCII characters.
-/

namespace Runbook

/-- Why a value has no JSON text. -/
inductive NotJson where
  | value (kind : Value.Kind)
  | key (kind : Value.Kind)
  deriving DecidableEq, Repr

/-- The message about a value that has no JSON text. -/
def NotJson.message : NotJson → String
  | .value k => "Object of type " ++ k.shortName ++ " is not JSON serializable"
  | .key k => "keys must be str, int, float, bool or None, not " ++ k.name

namespace Json

/-- A number as JSON has it, with words for what is not a finite number. -/
def floatText : Binary64 → String
  | .nan _ => "NaN"
  | .inf s => if s then "-Infinity" else "Infinity"
  | x => x.toText

/-- A number after a round trip through JSON. -/
def reread : Binary64 → Binary64
  | .nan _ => nan
  | x => x

/-- An escaped UTF-16 unit. -/
def unitEscape (n : Nat) : List Char := '\\' :: 'u' :: Text.hexChars 4 n

/-- A character inside a JSON text. -/
def charText (c : Char) : List Char :=
  if c = '"' ∨ c = '\\' then ['\\', c]
  else if c = '\n' then ['\\', 'n']
  else if c = '\r' then ['\\', 'r']
  else if c = '\t' then ['\\', 't']
  else if c.toNat = 0x8 then ['\\', 'b']
  else if c.toNat = 0xc then ['\\', 'f']
  else if 0x20 ≤ c.toNat ∧ c.toNat < 0x7f then [c]
  else if c.toNat < 0x10000 then unitEscape c.toNat
  else
    let n := c.toNat - 0x10000
    unitEscape (0xd800 + n / 0x400) ++ unitEscape (0xdc00 + n % 0x400)

/-- A text between double quotes. -/
def stringText (s : String) : String := String.ofList ('"' :: s.toList.flatMap charText ++ ['"'])

/-- The text that stands for a key. -/
def keyText : Value → Except NotJson String
  | .str s => .ok s
  | .null => .ok "null"
  | .bool b => .ok (if b then "true" else "false")
  | .int n => .ok (String.ofList (Digits.ofInt n))
  | .float x => .ok (floatText x)
  | v => .error (.key v.kind)

end Json

namespace Value

mutual

/-- The value after a round trip through JSON. -/
def jsonForm : Value → Except NotJson Value
  | list xs => (jsonForms xs).map .list
  | tuple xs => (jsonForms xs).map .list
  | dict es => (jsonEntries es []).map Fields.toValue
  | null => .ok null
  | bool b => .ok (bool b)
  | int n => .ok (int n)
  | float x => .ok (float (Json.reread x))
  | str s => .ok (str s)
  | decimal _ => .error (.value .decimal)
  | bytes _ => .error (.value .bytes)
  | date _ => .error (.value .date)
  | dateTime _ => .error (.value .dateTime)
  | set _ => .error (.value .set)

/-- The items of a list after the round trip. -/
def jsonForms : List Value → Except NotJson (List Value)
  | [] => .ok []
  | x :: xs => do
    let y ← jsonForm x
    let ys ← jsonForms xs
    return y :: ys

/-- The entries of a dictionary after the round trip. -/
def jsonEntries : List (Value × Value) → Fields → Except NotJson Fields
  | [], acc => .ok acc
  | (k, v) :: es, acc => do
    let key ← Json.keyText k
    let w ← jsonForm v
    jsonEntries es (acc.set key w)

end

mutual

/-- The JSON text of a value. -/
def jsonText : Value → Except NotJson String
  | list xs => (jsonTexts xs).map fun ts => "[" ++ ", ".intercalate ts ++ "]"
  | tuple xs => (jsonTexts xs).map fun ts => "[" ++ ", ".intercalate ts ++ "]"
  | dict es => (entryTexts es).map fun ts => "\x7b" ++ ", ".intercalate ts ++ "\x7d"
  | null => .ok "null"
  | bool b => .ok (if b then "true" else "false")
  | int n => .ok (String.ofList (Digits.ofInt n))
  | float x => .ok (Json.floatText x)
  | str s => .ok (Json.stringText s)
  | v => .error (.value v.kind)

/-- The JSON texts of the items of a list. -/
def jsonTexts : List Value → Except NotJson (List String)
  | [] => .ok []
  | x :: xs => do
    let t ← jsonText x
    let ts ← jsonTexts xs
    return t :: ts

/-- The JSON texts of the entries of a dictionary. -/
def entryTexts : List (Value × Value) → Except NotJson (List String)
  | [] => .ok []
  | (k, v) :: es => do
    let key ← Json.keyText k
    let t ← jsonText v
    let ts ← entryTexts es
    return (Json.stringText key ++ ": " ++ t) :: ts

end

end Value

end Runbook
