import Runbook.Step.Reader

/-!
# Workflows

* `StoredWorkflow`: a workflow as it is kept, its steps not yet read.
* `Workflow.load`: the typed workflow, or the first fault among its steps.
-/

namespace Runbook

/-- A workflow as it is kept, with the variables that its runs begin with. Nothing about it is checked before
it is loaded. -/
structure StoredWorkflow where
  id : Value
  tenant : Value
  name : Value := .str ""
  steps : Value := .list []
  initial : Value := .dict []

/-- A workflow that can be run, with the variables that its runs begin with. -/
structure Workflow where
  id : String
  tenant : String
  name : String
  initial : Fields
  steps : List Step

namespace Workflow

/-- The number of passes of a loop that sets no limit. -/
def standardLimit : Int := 100

/-- The typed workflow of a stored one. Its steps are read first, in order, and then its own fields. Variables
that count as nothing are none. -/
def load (limit : Value) (stored : StoredWorkflow) : Except Failure Workflow := do
  let initial ← ((stored.initial.orElse (.dict [])).paired).mapError fun e => .misuse (.wrongShape e)
  let raws ← stored.steps.members.mapError fun e => .misuse (.wrongShape e)
  let steps ← Step.readAll limit raws
  Checked.forObject "WorkflowDefinition"
    ((fun id tenant name initial => ⟨id, tenant, name, initial, steps⟩)
      <$> (Field.text stored.id).under "id"
      <*> (Field.text stored.tenant).under "tenant_id"
      <*> (Field.text stored.name).under "name"
      <*> (Field.dictionary Field.any (.dict initial)).under "variables")

end Workflow

end Runbook
