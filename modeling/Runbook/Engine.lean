import Runbook.Engine.Action
import Runbook.Engine.Webhook
import Runbook.Settings

/-!
# The engine

A run of a workflow opens an execution, reads the workflow, takes its steps in the order of their list and
closes the execution once: as completed, or as failed with the message of the failure, which is then the
failure of the run. Around each step a step run is opened and closed in the same way.

* `Engine.runAll`: takes the steps of a list.
* `Engine.run`: a run, from the lookup of the workflow to the closing of its execution.
-/

namespace Runbook

/-- How an engine runs workflows. -/
structure Engine where
  registry : Registry := {}
  sender : String := standardSender
  webhook : WebhookOptions := {}
  loopLimit : Value := .int Workflow.standardLimit
  timeout : Option Binary64 := none

/-- The engine that settings ask for, with all its collaborators. -/
def Engine.ofSettings (s : Settings) : Engine where
  sender := s.smtpFrom
  webhook := ⟨s.webhookTimeout, s.blockPrivateNetworks⟩
  loopLimit := .int s.loopLimit
  timeout := s.timeout

/-- What a caller gives to a run; variables that are given override those of the workflow. -/
structure Order where
  workflow : String
  actor : Actor
  input : Entries := []
  given : Variables := []

/-- What a run ends with, with its variables at the end. -/
structure Execution where
  id : String
  user : String
  input : Entries
  final : Variables

/-- An open execution. -/
structure Opened where
  id : String
  actor : Actor
  startedAt : DateTime

namespace Engine

/-! ## Steps -/

/-- Opens a step run, does the step and closes the step run with the step's outcome. -/
def record (e : Opened) (path : StepPath) (kind : StepKind) (body : Run Unit) : Run Unit := do
  let startedAt ← Run.now
  let id ← Run.call (.createStepRun ⟨e.actor.tenant, e.id, path.id, kind, path, startedAt⟩)
  let result ← Run.observe body
  let completedAt ← Run.now
  Run.call (.updateStepRun e.actor.tenant id
    ⟨.ofResult result, completedAt, Clock.elapsed startedAt completedAt⟩)
  result

/-- Compares the value at a path with the expected one and keeps the result under the step's name. -/
def compare (step path : String) (operator : Operator) (expected : Value) : Run Unit := do
  let actual ← Run.lookup path
  let result ← (operator.evaluate actual expected).mapError fun e => Failure.misuse (.notComparable e)
  Run.setVariable (step ++ "_result") (.bool result)

/-- Waits for so many milliseconds. -/
def wait (milliseconds : Option Binary64) : Run Unit :=
  Run.attempt (Token.sleep ((milliseconds.getD 0).div 1000))

/-- The items that a loop goes over: none at all for null. -/
def itemsOf (collection : String) : Value → Except Failure (List Value)
  | .null => .ok []
  | .list xs | .tuple xs => .ok xs
  | _ => .error (.fault (.notAnArray collection))

/-- Makes the passes of a loop. Before each pass the index and the item are set as variables. -/
def passes (body : Nat → Run Unit) : (index : Nat) → List Value → Run Unit
  | _, [] => return ()
  | index, x :: rest => do
    Run.setVariable "current_index" (.int index)
    Run.setVariable "current_item" x
    body index
    passes body (index + 1) rest

mutual

/-- Does what a step asks for. -/
def execute (g : Engine) (e : Opened) (path : StepPath) : Task → Run Unit
  | .condition at_ operator expected => compare path.id at_ operator expected
  | .action a => do
    g.registry.checkAction a.kind
    a.perform g.registry g.sender e.actor
  | .loop collection maxIterations body => do
    let items ← itemsOf collection (← Run.lookup collection)
    passes (fun i => runAll g e (.inside path (some (i : Int))) body) 0 (items.take maxIterations)
  | .delay milliseconds => wait milliseconds
  | .webhook w => do
    let reply ← w.run g.webhook
    Run.setVariable (path.id ++ "_response") reply

/-- Takes a step and records it. -/
def runStep (g : Engine) (e : Opened) (place : String → StepPath) : Step → Run Unit
  | .mk id task _ _ => record e (place id) task.kind do
    g.registry.checkKind task.kind
    execute g e (place id) task

/-- Takes the steps of a list in order; the token is looked at before each. -/
def runAll (g : Engine) (e : Opened) (place : String → StepPath) : List Step → Run Unit
  | [] => return ()
  | step :: rest => do
    Run.check
    runStep g e place step
    runAll g e place rest

end

/-! ## Executions -/

/-- Reads the workflow and takes its steps. -/
def body (g : Engine) (e : Opened) (stored : StoredWorkflow) : Run Unit := do
  let workflow ← Workflow.load g.loopLimit stored
  runAll g e .top workflow.steps

/-- Closes an execution with an outcome. -/
def close (e : Opened) (outcome : Outcome) : Run Unit := do
  let completedAt ← Run.now
  let final ← Variables.recorded (← Run.current)
  Run.call (.updateExecution e.actor.tenant e.id
    ⟨outcome, completedAt, Clock.elapsed e.startedAt completedAt, final⟩)

/-- Finds the workflow of a run. -/
def find (o : Order) : Attempt Call Call.Answer StoredWorkflow := do
  let stored? ← Attempt.call (Call.getWorkflow o.actor.tenant o.workflow) none
  match (stored? : Option StoredWorkflow) with
  | some stored => return stored
  | none => throw (.fault (.workflowNotFound o.workflow))

/-- The variables that a run begins with: those of the workflow, overridden and followed by those of the order. -/
def startVariables (stored : StoredWorkflow) (o : Order) : Except Failure Variables :=
  (((stored.initial.orElse (.dict [])).mapping).map fun vs => Variables.merge vs o.given).mapError fun e =>
    .misuse (.wrongShape e)

/-- Opens the execution of a run. -/
def openExecution (g : Engine) (o : Order) (vs : Variables) : Attempt Call Call.Answer Opened := do
  let startedAt := Clock.stamp (← Attempt.ask .now)
  let input ← (Value.dict o.input).recorded
  let snapshot ← Variables.recorded vs
  let id : String ← Attempt.call
    (Call.createExecution ⟨o.actor.tenant, o.workflow, o.actor.user, startedAt, input, snapshot⟩) none
  Attempt.ask (.openToken g.timeout)
  Attempt.ask (.enlist id o.workflow o.actor.tenant)
  return ⟨id, o.actor, startedAt⟩

/-- The steps of an open execution, and its closing. -/
def conduct (g : Engine) (e : Opened) (stored : StoredWorkflow) : Run Unit := do
  let result ← Run.observe (g.body e stored)
  close e (.ofResult result)
  result

/-- A run. The execution is on the list of running ones while it is open. -/
def run (g : Engine) (o : Order) : Attempt Call Call.Answer Execution := do
  let stored ← find o
  let vs ← startVariables stored o
  let e ← g.openExecution o vs
  let (result, final) ← ExceptT.lift ((g.conduct e stored).run.run vs)
  Attempt.ask (.delist e.id)
  result
  return ⟨e.id, o.actor.user, o.input, final⟩

end Engine

end Runbook
