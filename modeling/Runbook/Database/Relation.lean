import Runbook.Database.Column
import Runbook.Step

/-!
# Relations

The tables of the database: those that workflows write to, the inbox of notifications, the workflows, and the
audit records of executions and step runs.

* `Relation.columns`: the columns of a table, in their order.
-/

namespace Runbook

/-- A table of the database. -/
inductive Relation where
  | records (table : Table)
  | notifications
  | workflows
  | executions
  | stepRuns
  deriving DecidableEq, Repr

namespace Relation

/-- The name of a table. -/
def title : Relation → String
  | records t => t.name
  | notifications => "notifications"
  | workflows => "automation_workflows"
  | executions => "automation_workflow_executions"
  | stepRuns => "automation_workflow_step_runs"

/-! ## Columns of every table -/

/-- A column that a row must have, with what it has if nothing is given. -/
def required (name : String) (kind : Column.Kind) (default : Column.Default) : Column :=
  { name, kind, required := true, default }

/-- A text that a row must have. -/
def key (name : String) : Column := required name .text .nothing

/-- The columns of a row that belongs to a tenant. -/
def owner : List Column := [key "tenant_id"]

/-- The columns that name and date a row. -/
def base : List Column := [
  required "id" .text .freshId,
  required "created_at" .moment .now,
  required "updated_at" .moment .now]

/-! ## Columns of each table -/

/-- The columns that all tables have to which workflows write. -/
def recordBase : List Column :=
  [⟨"status", .text, false, .nothing⟩, ⟨"created_by", .text, false, .nothing⟩,
    ⟨"updated_by", .text, false, .nothing⟩, ⟨"attributes", .json, false, .nothing⟩] ++ owner ++
  [⟨"deleted_at", .moment, false, .nothing⟩, required "is_deleted" .truth (.value (.bool false))] ++ base

/-- The columns that one of these tables has of its own. -/
def recordOwn : Table → List Column
  | .suppliers => [{ name := "name" }, { name := "supplier_code" }, { name := "email" }]
  | .inventoryItems => [{ name := "sku" }, { name := "name" },
      { name := "quantity_on_hand", kind := .integer }, { name := "reorder_point", kind := .integer }]
  | .purchaseOrders => [{ name := "po_number" }, { name := "supplier_id" },
      { name := "total_amount", kind := .amount }, { name := "expected_delivery_date", kind := .moment }]
  | .orders => [{ name := "order_number" }, { name := "customer_id" },
      { name := "total_amount", kind := .amount }, { name := "priority" }]

/-- A text with a default. -/
def textOr (name default : String) : Column := required name .text (.value (.str default))

/-- The columns of a table. -/
def columns : Relation → List Column
  | records t => recordOwn t ++ recordBase
  | notifications =>
    [key "user_id", key "title", key "message", textOr "type" "info", textOr "category" "workflow",
      textOr "priority" "medium", required "details" .json (.value (.dict [])), { name := "action_url" },
      textOr "status" "unread"] ++ owner ++ base
  | workflows =>
    [key "name", textOr "description" "", textOr "status" "ACTIVE",
      required "steps" .json (.value (.list [])), { name := "variables", kind := .json },
      { name := "created_by" }] ++ owner ++ base
  | executions =>
    [key "workflow_id", { name := "triggered_by" }, textOr "status" "running",
      required "started_at" .moment .nothing, { name := "completed_at", kind := .moment },
      { name := "duration_ms", kind := .integer }, { name := "input_data", kind := .json },
      { name := "variables", kind := .json }, { name := "final_variables", kind := .json },
      { name := "error_message" }] ++ owner ++ base
  | stepRuns =>
    [key "execution_id", key "step_id", key "step_kind", key "step_path", { name := "parent_step_id" },
      { name := "iteration", kind := .integer }, textOr "status" "running",
      required "started_at" .moment .nothing, { name := "completed_at", kind := .moment },
      { name := "duration_ms", kind := .integer }, { name := "error_message" }] ++ owner ++ base

/-- The column of a name. -/
def column? (r : Relation) (name : String) : Option Column := r.columns.find? (·.name == name)

end Relation

end Runbook
