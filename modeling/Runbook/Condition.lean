import Runbook.Value.Compare
import Runbook.Value.Kind
import Runbook.Value.Text

/-!
# Conditions

A condition compares a value found in the variables with one given in the workflow.

* `Operator`: the five comparisons, with their names.
* `Operator.evaluate`: the outcome of a comparison. Values that have no order are neither greater nor
  less; `contains` searches the plain text of one value in that of the other.
-/

namespace Runbook

/-- A comparison. -/
inductive Operator where
  | equals
  | notEquals
  | greaterThan
  | lessThan
  | contains
  deriving DecidableEq, Repr

namespace Operator

/-- All comparisons, in the order in which messages list them. -/
def all : List Operator := [equals, notEquals, greaterThan, lessThan, contains]

/-- The name of a comparison in a stored workflow. -/
def name : Operator → String
  | equals => "equals"
  | notEquals => "not_equals"
  | greaterThan => "greater_than"
  | lessThan => "less_than"
  | contains => "contains"

/-- The comparison of a name. -/
def ofName? (name : String) : Option Operator := all.find? (·.name == name)

/-- Whether the plain text of `part` occurs in that of `whole`. -/
def textContains (whole part : Value) : Bool := Text.occursIn part.plainText.toList whole.plainText.toList

/-- The outcome of a comparison. -/
def evaluate (op : Operator) (actual expected : Value) : Except NotComparable Bool :=
  match op with
  | equals => actual.strictEqual expected
  | notEquals => (actual.strictEqual expected).map (!·)
  | greaterThan => actual.greater expected
  | lessThan => actual.less expected
  | contains => .ok (textContains actual expected)

end Operator

end Runbook
