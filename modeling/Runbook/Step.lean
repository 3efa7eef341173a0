import Runbook.Condition
import Runbook.Email
import Runbook.Notification
import Runbook.Step.Path

/-!
# Steps

A workflow is a list of steps. A step compares values, performs an action, waits, calls a web address or
runs a list of further steps once per item of a list.

* `StepKind`, `ActionKind`, `Table`: the closed vocabularies, with their names.
* `Step` and `Task`: a step and what it does.
* `Action`: the side effects that a step can have.
-/

namespace Runbook

/-- The kinds of steps. -/
inductive StepKind where
  | condition
  | action
  | loop
  | delay
  | webhook
  deriving DecidableEq, Repr

namespace StepKind

def all : List StepKind := [condition, action, loop, delay, webhook]

/-- The name of a kind in a stored workflow. -/
def name : StepKind → String
  | condition => "condition"
  | action => "action"
  | loop => "loop"
  | delay => "delay"
  | webhook => "webhook"

/-- The kind of a name. -/
def ofName? (name : String) : Option StepKind := all.find? (·.name == name)

/-- The heading under which a kind is listed. -/
def displayName : StepKind → String
  | condition => "Condition"
  | action => "Action"
  | loop => "Loop"
  | delay => "Delay"
  | webhook => "Webhook"

/-- What a step of a kind does. -/
def description : StepKind → String
  | condition => "Compare a variable against a value and store the boolean result"
  | action => "Send email, create or update a record, or send a notification"
  | loop => "Run nested steps for each item in a collection"
  | delay => "Wait for a duration (milliseconds) before continuing"
  | webhook => "Send an HTTP request and store the JSON response"

end StepKind

/-- The kinds of actions. -/
inductive ActionKind where
  | sendEmail
  | createRecord
  | updateRecord
  | sendNotification
  deriving DecidableEq, Repr

namespace ActionKind

def all : List ActionKind := [sendEmail, createRecord, updateRecord, sendNotification]

/-- The name of an action in a stored workflow. -/
def name : ActionKind → String
  | sendEmail => "send_email"
  | createRecord => "create_record"
  | updateRecord => "update_record"
  | sendNotification => "send_notification"

/-- The action of a name. -/
def ofName? (name : String) : Option ActionKind := all.find? (·.name == name)

end ActionKind

/-- The tables that workflows may write to. -/
inductive Table where
  | suppliers
  | inventoryItems
  | purchaseOrders
  | orders
  deriving DecidableEq, Repr

namespace Table

def all : List Table := [suppliers, inventoryItems, purchaseOrders, orders]

/-- The name of a table. -/
def name : Table → String
  | suppliers => "suppliers"
  | inventoryItems => "inventory_items"
  | purchaseOrders => "purchase_orders"
  | orders => "orders"

/-- The table of a name. -/
def ofName? (name : String) : Option Table := all.find? (·.name == name)

end Table

/-- The id of a record, a text or a number. -/
inductive RecordId where
  | text (id : String)
  | number (id : Int)
  deriving DecidableEq, Repr

/-- The text of the id of a record. -/
def RecordId.key : RecordId → String
  | text id => id
  | number id => String.ofList (Digits.ofInt id)

/-- A user named in a step, and the channels the user is to be reached by. -/
structure Addressee where
  user : String
  channels : List Channel := Channel.standard
  deriving DecidableEq, Repr

/-- The recipient that a named user is within a tenant. -/
def Addressee.within (a : Addressee) (tenant : String) : Recipient := ⟨a.user, tenant, a.channels⟩

/-- A side effect. -/
inductive Action where
  | sendEmail (addressees : Addressees) (subject body : String) (sender : Option String)
  | createRecord (table : Table) (data : Fields)
  | updateRecord (table : Table) (record : RecordId) (data : Fields)
  | sendNotification (recipients : List Addressee) (title message : String) (severity : Severity)
      (category : String) (priority : Priority)

/-- The kind of an action. -/
def Action.kind : Action → ActionKind
  | sendEmail .. => .sendEmail
  | createRecord .. => .createRecord
  | updateRecord .. => .updateRecord
  | sendNotification .. => .sendNotification

/-- A call of a web address. -/
structure Webhook where
  url : String
  method : String
  headers : List (String × String)
  body : Value

mutual

/-- A step: its id, what it does, and the ids of the steps that it names as its successors. A run takes the
steps in the order of their list and does not follow the names. -/
inductive Step where
  | mk (id : String) (task : Task) (next : Option String) (conditionTarget : Option String)

/-- What a step does. A delay that gives no duration has none. -/
inductive Task where
  | condition (path : String) (operator : Operator) (expected : Value)
  | action (action : Action)
  | loop (collection : String) (maxIterations : Nat) (body : List Step)
  | delay (milliseconds : Option Binary64)
  | webhook (call : Webhook)

end

/-- The kind of a step that does this. -/
def Task.kind : Task → StepKind
  | condition .. => .condition
  | action .. => .action
  | loop .. => .loop
  | delay .. => .delay
  | webhook .. => .webhook

namespace Step

def id : Step → String
  | mk id _ _ _ => id

def task : Step → Task
  | mk _ task _ _ => task

def next : Step → Option String
  | mk _ _ next _ => next

def conditionTarget : Step → Option String
  | mk _ _ _ target => target

/-- The kind of a step. -/
def kind (s : Step) : StepKind := s.task.kind

end Step

end Runbook
