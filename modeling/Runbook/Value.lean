import Runbook.Number.Extended
import Runbook.Time.Calendar
import Runbook.Text.Class

/-!
# Values

What a workflow variable, an input or a field of a stored step can hold. A dictionary keeps the order in
which its keys came; its keys are values too, though data read from JSON has text keys only.

* `Value.get?` and `Value.setKey`: entries of a dictionary.
* `Value.isTruthy`: whether a value counts as given where a default stands in for "nothing".
-/

namespace Runbook

/-- A dynamic value. -/
inductive Value where
  | null
  | bool (b : Bool)
  | int (n : Int)
  | float (x : Binary64)
  | decimal (d : Decimal)
  | str (s : String)
  | bytes (bs : List UInt8)
  | date (d : Date)
  | dateTime (t : DateTime)
  | list (items : List Value)
  | tuple (items : List Value)
  | set (items : List Value)
  | dict (entries : List (Value × Value))
  deriving Repr, Inhabited

/-- The entries of a dictionary, in order. -/
abbrev Entries := List (Value × Value)

/-- Named fields, in order: a dictionary all of whose keys are texts. -/
abbrev Fields := List (String × Value)

namespace Value

/-- Whether a value is this text. -/
def isStr (key : String) : Value → Bool
  | str s => s == key
  | _ => false

/-- Whether a value counts as something: not null, false, zero or empty. -/
def isTruthy : Value → Bool
  | null => false
  | bool b => b
  | int n => n != 0
  | float x => !x.isZero
  | decimal d => !d.isZero
  | str s => !s.isEmpty
  | bytes bs => !bs.isEmpty
  | date _ | dateTime _ => true
  | list xs | tuple xs | set xs => !xs.isEmpty
  | dict es => !es.isEmpty

/-- A value, or the other one if it counts as nothing. -/
def orElse (v default : Value) : Value := if v.isTruthy then v else default

/-- Whether a value is null or a text of blanks only. -/
def isBlank : Value → Bool
  | null => true
  | str s => Text.isAllBlank s
  | _ => false

end Value

namespace Entries

/-- The value under a text key. -/
def get? (es : Entries) (key : String) : Option Value :=
  match es with
  | [] => none
  | (k, v) :: rest => if k.isStr key then some v else get? rest key

/-- The entries with the value under a text key replaced, or with a new entry at the end. -/
def set (es : Entries) (key : String) (value : Value) : Entries :=
  match es with
  | [] => [(.str key, value)]
  | (k, v) :: rest => if k.isStr key then (k, value) :: rest else (k, v) :: set rest key value

/-- The entries without the one under a text key. -/
def erase (es : Entries) (key : String) : Entries := es.filter fun (k, _) => !k.isStr key

/-- The value under a text key, null if there is none. -/
def getD (es : Entries) (key : String) : Value := (es.get? key).getD .null

end Entries

namespace Fields

/-- The value under a name. -/
def get? (fs : Fields) (name : String) : Option Value := (fs.find? (·.1 == name)).map (·.2)

/-- The fields with the value under a name replaced, or with a new field at the end. -/
def set (fs : Fields) (name : String) (value : Value) : Fields :=
  match fs with
  | [] => [(name, value)]
  | (n, v) :: rest => if n == name then (n, value) :: rest else (n, v) :: set rest name value

/-- The fields without the one of a name. -/
def erase (fs : Fields) (name : String) : Fields := fs.filter (·.1 != name)

/-- The fields of `fs` overridden and followed by those of `other`. -/
def merge (fs other : Fields) : Fields := other.foldl (fun acc (n, v) => acc.set n v) fs

/-- The fields as a dictionary. -/
def toEntries (fs : Fields) : Entries := fs.map fun (n, v) => (.str n, v)

/-- The fields as a value. -/
def toValue (fs : Fields) : Value := .dict fs.toEntries

end Fields

end Runbook
