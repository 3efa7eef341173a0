import Runbook.Net.Http
import Runbook.Time.Clock
import Runbook.Token
import Runbook.Variables
import Runbook.Workflow

/-!
# Collaborators of the engine

* `Call` and `Call.Answer`: what the engine asks of its collaborators: the repository of workflows, the audit
  store, the mail transport, the sender of notifications, the stores of tables and the web client.
* `ExecutionStart`, `ExecutionEnd`, `StepRunStart`, `StepRunEnd`: the audit records.
* `Run`: a part of a run of a workflow. It may fail; the variables it has set stay set.
-/

namespace Runbook

/-- How an execution or a step run has ended. -/
inductive Outcome where
  | completed
  | failed (message : String)
  deriving DecidableEq, Repr

namespace Outcome

/-- The name of the status that an outcome is recorded with. -/
def status : Outcome → String
  | completed => "completed"
  | failed _ => "failed"

/-- The fields that an outcome is recorded with. -/
def fields : Outcome → Fields
  | completed => [("status", .str "completed")]
  | failed message => [("status", .str "failed"), ("error_message", .str message)]

/-- The outcome of a part of a run. -/
def ofResult {α : Type} : Except Failure α → Outcome
  | .ok _ => completed
  | .error f => failed f.summary

end Outcome

/-- The status of what has not ended yet. -/
def runningStatus : String := "running"

/-- A text that may be missing, as a value. -/
def Value.ofText? : Option String → Value
  | some s => .str s
  | none => .null

/-- The record that opens an execution. -/
structure ExecutionStart where
  tenant : String
  workflow : String
  user : String
  startedAt : DateTime
  input : Value
  startVariables : Value

/-- The record that closes an execution. -/
structure ExecutionEnd where
  outcome : Outcome
  completedAt : DateTime
  milliseconds : Int
  finalVariables : Value

/-- The record that opens a step run. -/
structure StepRunStart where
  tenant : String
  execution : String
  step : String
  kind : StepKind
  path : StepPath
  startedAt : DateTime

/-- The record that closes a step run. -/
structure StepRunEnd where
  outcome : Outcome
  completedAt : DateTime
  milliseconds : Int

def ExecutionStart.fields (e : ExecutionStart) : Fields := [
  ("tenant_id", .str e.tenant), ("workflow_id", .str e.workflow), ("triggered_by", .str e.user),
  ("status", .str runningStatus), ("started_at", .dateTime e.startedAt), ("input_data", e.input),
  ("variables", e.startVariables)]

def ExecutionEnd.fields (e : ExecutionEnd) : Fields :=
  e.outcome.fields ++ [("completed_at", .dateTime e.completedAt), ("duration_ms", .int e.milliseconds),
    ("final_variables", e.finalVariables)]

def StepRunStart.fields (s : StepRunStart) : Fields := [
  ("tenant_id", .str s.tenant), ("execution_id", .str s.execution), ("step_id", .str s.step),
  ("step_kind", .str s.kind.name), ("step_path", .str s.path.text),
  ("parent_step_id", .ofText? s.path.parentId?),
  ("iteration", match s.path.iteration? with | some i => .int i | none => .null),
  ("status", .str runningStatus), ("started_at", .dateTime s.startedAt)]

def StepRunEnd.fields (s : StepRunEnd) : Fields :=
  s.outcome.fields ++ [("completed_at", .dateTime s.completedAt), ("duration_ms", .int s.milliseconds)]

/-- What the engine asks of a collaborator. -/
inductive Call where
  | getWorkflow (tenant workflow : String)
  | createExecution (record : ExecutionStart)
  | updateExecution (tenant execution : String) (record : ExecutionEnd)
  | createStepRun (record : StepRunStart)
  | updateStepRun (tenant stepRun : String) (record : StepRunEnd)
  | freshId
  | sendEmail (message : Email)
  | notify (recipients : List Recipient) (payload : Payload)
  | insert (table : Table) (tenant : String) (record : Fields)
  | update (table : Table) (tenant record : String) (fields : Fields)
  | http (request : Http.Request)
  | closeHttp

/-- What a collaborator answers. -/
def Call.Answer : Call → Type
  | getWorkflow .. => Option StoredWorkflow
  | createExecution _ => String
  | updateExecution .. => Unit
  | createStepRun _ => String
  | updateStepRun .. => Unit
  | freshId => String
  | sendEmail _ => Unit
  | notify .. => Unit
  | insert .. => Unit
  | update .. => Bool
  | http _ => Http.Response
  | closeHttp => Unit

/-- A part of a run of a workflow. -/
abbrev Run := ExceptT Failure (StateT Variables (Routine Call Call.Answer))

namespace Run

variable {α : Type}

/-- A part that does not touch the variables. -/
def attempt (a : Attempt Call Call.Answer α) : Run α :=
  ExceptT.mk (StateT.lift a.run)

/-- Makes a call. -/
def call (c : Call) : Run c.Answer := attempt (Attempt.call c none)

/-- Makes a call that the run's token bounds. -/
def guarded (c : Call) : Run c.Answer := attempt (Token.guard c)

/-- Fails if the run is cancelled or past its deadline. -/
def check : Run Unit := attempt Token.check

/-- The time. -/
def now : Run DateTime := do
  let reading ← attempt (Attempt.ask .now)
  return Clock.stamp reading

/-- The variables as they are now. -/
def current : Run Variables := ExceptT.lift get

/-- Sets a variable. -/
def setVariable (name : String) (v : Value) : Run Unit :=
  ExceptT.lift (modify fun (vs : Variables) => vs.set name v)

/-- The value at a path into the variables. -/
def lookup (path : String) : Run Value := do
  let vs ← current
  Variables.lookup vs (.str path)

/-- A part of a run with its failure as a result. -/
def observe (m : Run α) : Run (Except Failure α) := ExceptT.lift m.run

end Run

end Runbook
