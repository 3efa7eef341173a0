import Runbook.Value.Text

/-!
# Snapshots

The form in which values are recorded: only null, truth values, numbers, texts, lists and dictionaries
with text keys, and nothing nested deeper than a fixed depth.

* `Value.snapshot`: the recorded form of a value.
-/

namespace Runbook

/-- A decimal that has no number to be recorded as. -/
inductive NotRecordable where
  | signalingNaN
  deriving DecidableEq, Repr

namespace Value

/-- The depth up to which values keep their structure; a deeper one is recorded as its text. -/
def snapshotDepth : Int := 10

/-- A value beyond the depth is recorded as its text, another one in the given form. -/
def upTo (depth : Int) (v : Value) (form : Except NotRecordable Value) : Except NotRecordable Value :=
  if snapshotDepth < depth then .ok (.str v.text) else form

mutual

/-- The recorded form of a value at a depth. -/
def snapshotAt (depth : Int) : Value → Except NotRecordable Value
  | dateTime t => upTo depth (dateTime t) (.ok (.str t.isoText))
  | date d => upTo depth (date d) (.ok (.str d.isoText))
  | bytes bs => .ok (.str (bytes bs).text)
  | decimal d => upTo depth (decimal d) (match d.toBinary64? with
    | some x => .ok (.float x)
    | none => .error .signalingNaN)
  | dict es => upTo depth (dict es) ((snapshotEntries (depth + 1) es []).map Fields.toValue)
  | list xs => upTo depth (list xs) ((snapshotItems (depth + 1) xs).map .list)
  | tuple xs => upTo depth (tuple xs) ((snapshotItems (depth + 1) xs).map .list)
  | set xs => upTo depth (set xs) ((snapshotItems (depth + 1) xs).map .list)
  | v => upTo depth v (.ok v)

/-- The recorded forms of the items of a list. -/
def snapshotItems (depth : Int) : List Value → Except NotRecordable (List Value)
  | [] => .ok []
  | x :: xs => do
    let y ← snapshotAt depth x
    let ys ← snapshotItems depth xs
    return y :: ys

/-- The recorded entries of a dictionary, keys as texts, the last value of a key in its first place. -/
def snapshotEntries (depth : Int) : List (Value × Value) → Fields → Except NotRecordable Fields
  | [], acc => .ok acc
  | (k, v) :: es, acc => do
    let w ← snapshotAt depth v
    snapshotEntries depth es (acc.set k.text w)

end

/-- The recorded form of a value. -/
def snapshot (v : Value) : Except NotRecordable Value := snapshotAt 0 v

end Value

end Runbook
