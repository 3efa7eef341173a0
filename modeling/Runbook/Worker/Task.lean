import Runbook.Engine

/-!
# Background tasks

* `Completed.ofRun`: what a caller gets who waits for a run in the background.
* `TaskAnswer.ofRun`: what the task answers that runs a workflow. It answers for a failed run too, but not for one that was
  stopped.
-/

namespace Runbook

/-- A run in the background that has completed: its execution and the recorded form of its variables. -/
structure Completed where
  execution : String
  finalVariables : Value

/-- What a caller gets who waits for a run. -/
def Completed.ofRun (result : Except Failure Execution) : Except Failure Completed := do
  let e ← result
  let final ← Variables.recorded e.final
  return ⟨e.id, final⟩

/-- What a task answers. -/
inductive TaskAnswer where
  | completed (run : Completed)
  | failed (message : String)

/-- What the task answers that runs a workflow; an order to stop goes on through it. -/
def TaskAnswer.ofRun (result : Except Failure Execution) : Except Failure TaskAnswer :=
  match Completed.ofRun result with
  | .ok run => .ok (completed run)
  | .error f => if f.isStop then .error f else .ok (failed f.message)

end Runbook
