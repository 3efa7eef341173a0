import Runbook.Database
import Runbook.Workflow

/-!
# Workflows, audit records and the inbox

* `Database.workflow?`: a stored workflow.
* `Database.createExecution`, `Database.updateExecution` and the same for step runs: the audit records.
* `Database.stepRuns`: the step runs of an execution, in the order in which they started.
* `Database.record`: puts a notification into the inbox of its recipient.
-/

namespace Runbook

namespace Database

/-! ## Workflows -/

/-- The workflow that a row holds. Steps and variables that count as nothing are none. -/
def storedWorkflow (row : Row) : Except WrongShape StoredWorkflow := do
  let steps ← ((row.value "steps").orElse (.list [])).members
  let initial ← ((row.value "variables").orElse (.dict [])).paired
  return {
    id := row.value "id"
    tenant := row.value "tenant_id"
    name := row.value "name"
    steps := .list steps
    initial := .dict initial }

/-- The workflow of an id within a tenant. -/
def workflow? (db : Database) (tenant id : String) : Except Failure (Option StoredWorkflow) :=
  match db.find? .workflows tenant id with
  | none => .ok none
  | some row => ((storedWorkflow row).map some).mapError fun e => .misuse (.wrongShape e)

/-! ## Audit records -/

/-- What the records of a relation are called in messages. -/
def recordName : Relation → String
  | .executions => "WorkflowExecution"
  | _ => "WorkflowStepRun"

/-- The fields that are no columns of a relation. -/
def unknownNames (r : Relation) (fields : Fields) : List String :=
  (fields.map (·.1)).filter fun n => (r.column? n).isNone

/-- Adds a record with a fresh id, and the id. -/
def create (db : Database) (r : Relation) (fields : Fields) : Except Failure String × Database :=
  let (id, db) := db.freshId
  match unknownNames r fields with
  | name :: _ =>
    (.error (.reported "TypeError"
      ("'" ++ name ++ "' is an invalid keyword argument for " ++ recordName r) none), db)
  | [] =>
    let (result, db) := db.insert r (("id", .str id) :: fields)
    (result.map fun _ => id, db)

/-- Sets fields of the record of an id within a tenant, if there is one. -/
def update (db : Database) (r : Relation) (tenant id : String) (fields : Fields) : Except Failure Database :=
  match unknownNames r fields with
  | [] => db.change r (fun row => row.isOf tenant id) fields
  | names => .error (.database "CompileError" ("Unconsumed column names: " ++ ", ".intercalate names))

/-- Opens the record of an execution, and its id. -/
def createExecution (db : Database) (fields : Fields) : Except Failure String × Database :=
  db.create .executions fields

/-- Sets fields of the record of an execution. -/
def updateExecution (db : Database) (tenant id : String) (fields : Fields) : Except Failure Database :=
  db.update .executions tenant id fields

/-- Opens the record of a step run, and its id. -/
def createStepRun (db : Database) (fields : Fields) : Except Failure String × Database :=
  db.create .stepRuns fields

/-- Sets fields of the record of a step run. -/
def updateStepRun (db : Database) (tenant id : String) (fields : Fields) : Except Failure Database :=
  db.update .stepRuns tenant id fields

/-- The record of an execution. -/
def execution? (db : Database) (tenant id : String) : Option Row := db.find? .executions tenant id

/-- Whether a cell comes no later than another one. The time of the database is later than any given one. -/
def Cell.le : Cell → Cell → Bool
  | .value (.dateTime s), .value (.dateTime t) => decide (s.wallClock ≤ t.wallClock)
  | .now, .value _ => false
  | _, _ => true

/-- Whether a step run started no later than another one. -/
def startedBefore (a b : Row) : Bool :=
  let le (name : String) (a b : Row) : Bool :=
    match a.cell? name, b.cell? name with
    | some x, some y => Cell.le x y
    | _, _ => true
  if le "started_at" b a then le "started_at" a b && le "created_at" a b else le "started_at" a b

/-- The step runs of an execution, in the order in which they started. -/
def stepRuns (db : Database) (tenant execution : String) : List Row :=
  (db.select .stepRuns fun row =>
    row.holds "execution_id" execution && row.holds "tenant_id" tenant).mergeSort startedBefore

/-! ## The inbox -/

/-- The fields of a notification in the inbox of a recipient. -/
def inboxFields (recipient : Recipient) (payload : Payload) : Fields := [
  ("tenant_id", .str recipient.tenant), ("user_id", .str recipient.user), ("title", .str payload.title),
  ("message", .str payload.message), ("type", .str payload.severity.name), ("category", .str payload.category),
  ("priority", .str payload.priority.name), ("details", .dict payload.metadata),
  ("action_url", (payload.actionUrl.map Value.str).getD .null), ("status", .str "unread")]

/-- Puts a notification into the inbox of its recipient, and its id. -/
def record (db : Database) (recipient : Recipient) (payload : Payload) : Except Failure String × Database :=
  let (id, db) := db.freshId
  let (result, db) := db.insert .notifications (("id", .str id) :: inboxFields recipient payload)
  (result.map fun _ => id, db)

end Database

end Runbook
