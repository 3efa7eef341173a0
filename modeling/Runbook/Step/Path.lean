import Runbook.Number.Digits

/-!
# Step paths

Where a step runs inside an execution. A step of a loop body carries the path of the loop and the pass it
runs in, so the text of a nested path reads `loop_1[2]/notify`.

* `StepPath.text`: the text of a path.
* `StepPath.parentId?`: the id of the enclosing loop.
-/

namespace Runbook

/-- The place of a step: at the top, or in a pass of a loop. -/
inductive StepPath where
  | top (id : String)
  | inside (parent : StepPath) (iteration : Option Int) (id : String)
  deriving DecidableEq, Repr

namespace StepPath

/-- The id of the step itself. -/
def id : StepPath → String
  | top id => id
  | inside _ _ id => id

/-- The id of the enclosing loop. -/
def parentId? : StepPath → Option String
  | top _ => none
  | inside parent _ _ => some parent.id

/-- The pass of the enclosing loop. -/
def iteration? : StepPath → Option Int
  | top _ => none
  | inside _ iteration _ => iteration

/-- The number of a pass. -/
def iterationText : Option Int → String
  | none => "None"
  | some i => String.ofList (Digits.ofInt i)

/-- The text of a path. -/
def text : StepPath → String
  | top id => id
  | inside parent iteration id => parent.text ++ "[" ++ iterationText iteration ++ "]/" ++ id

end StepPath

end Runbook
