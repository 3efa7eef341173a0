import Runbook.Notification.Dispatch
import Runbook.Rehearsal.World

/-!
# Wiring

Who answers the engine's calls in a rehearsal: a stand-in that plays its cues, or the real thing on the database of
the rehearsal.

* `Wiring`: the choice for each collaborator; `Wiring.ofSettings`: the real thing throughout.
* `Wiring.perform`: what a call does.
-/

namespace Runbook

/-- The stores: in memory, or on the database. -/
inductive Stores where
  | inMemory
  | onDatabase
  deriving DecidableEq, Repr

/-- How email goes out: noted only, or by way of a mail server that may refuse commands. -/
inductive MailRoute where
  | scripted
  | server (server : MailServer) (refuses : MailCommand → Option Failure)

/-- How notifications go out: noted only, or by a dispatcher with the inbox on the database. -/
inductive NotificationRoute where
  | scripted
  | dispatcher

/-- Who answers the engine's calls. -/
structure Wiring where
  stores : Stores := .inMemory
  mail : MailRoute := .scripted
  notifications : NotificationRoute := .scripted
  /-- The sender of notifications by email. -/
  sender : String := standardSender
  /-- Whether there is an inbox, a publisher and a mail transport for notifications. -/
  inbox : Bool := true
  publisher : Bool := false
  transport : Bool := true
  /-- The addresses of users, if they are known. -/
  addresses : Option (List (String × String)) := none

namespace Wiring

/-- The collaborators that settings ask for: the stores on the database, email by way of a mail server that refuses
these commands, and the dispatcher of notifications. -/
def ofSettings (s : Settings) (refuses : MailCommand → Option Failure) : Wiring where
  stores := .onDatabase
  mail := .server s.mailServer refuses
  notifications := .dispatcher
  sender := s.smtpFrom

open World

variable (g : Wiring)

/-! ## Email and notifications -/

/-- Sends an email. -/
def sendEmail (m : Email) : Job World Unit :=
  match g.mail with
  | .scripted => do
    let _ ← answer .email (.called (.sendEmail m))
    return ()
  | .server server refuses => Job.update fun w =>
    let (said, result) := server.deliver refuses m
    (result, { w with mail := w.mail ++ said })

/-- Puts a notification into the inbox. -/
def record (recipient : Recipient) (payload : Payload) : Job World Unit :=
  match g.stores with
  | .inMemory => do
    let _ ← answer .inbox (.inbox recipient payload)
    return ()
  | .onDatabase => Job.update fun w =>
    let (result, db) := w.database.record recipient payload
    (result.map fun _ => (), { w with database := db })

/-- Publishes a notification inside the application. -/
def publish (recipient : Recipient) (payload : Payload) : Job World Unit := do
  let _ ← answer .inApp (.inApp recipient payload)
  return ()

/-- Looks up the address of a recipient. -/
def addressOf (addresses : List (String × String)) (recipient : Recipient) : Job World (Option String) := do
  let _ ← answer .resolve (.resolve recipient)
  return addresses.lookup recipient.user

/-- The dispatcher of notifications. -/
def dispatcher : Dispatcher World where
  sender := g.sender
  inbox := if g.inbox then some g.record else none
  publisher := if g.publisher then some publish else none
  transport := if g.transport then some g.sendEmail else none
  addresses := g.addresses.map addressOf

/-- Sends a notification. -/
def notify (recipients : List Recipient) (payload : Payload) : Job World Unit :=
  match g.notifications with
  | .scripted => do
    let _ ← answer .notify (.called (.notify recipients payload))
    return ()
  | .dispatcher => g.dispatcher.dispatch recipients payload

/-! ## Stores in memory -/

/-- Finds a workflow. -/
def findWorkflow (tenant id : String) : Job World (Option StoredWorkflow) := do
  let _ ← play .getWorkflow
  let w ← Job.lift Work.world
  return w.workflows.find? fun s => s.id.isStr id && s.tenant.isStr tenant

/-- Opens the record of an execution. -/
def openExecution (record : ExecutionStart) : Job World String := do
  let id ← Job.lift (Work.update fun (w : World) =>
    let id := numbered "exec-" (w.executions + 1)
    (id, { w with executions := w.executions + 1, last := some id }))
  let _ ← answer .createExecution (.opened id (.createExecution record))
  return id

/-- Opens the record of a step run. -/
def openStepRun (record : StepRunStart) : Job World String := do
  let id ← Job.lift (Work.update fun (w : World) =>
    (numbered "run-" (w.stepRuns + 1), { w with stepRuns := w.stepRuns + 1 }))
  let _ ← answer .createStepRun (.opened id (.createStepRun record))
  return id

/-- Notes a call that answers nothing. -/
def noted (p : Peer) (c : Call) : Job World Unit := do
  let _ ← answer p (.called c)
  return ()

/-- Notes a change of a row, and whether there is one. -/
def changeRow (table : Table) (tenant id : String) (fields : Fields) : Job World Bool := do
  noted .update (.update table tenant id fields)
  let w ← Job.lift Work.world
  return w.existing.contains (table, id)

/-! ## Stores on the database -/

/-- A statement that answers something or fails. -/
def statement {α : Type} (f : Database → Except Failure α × Database) : Job World α :=
  Job.update fun w =>
    let (result, db) := f w.database
    (result, { w with database := db })

/-- A statement that changes the database or fails. -/
def transaction {α : Type} (f : Database → Except Failure (α × Database)) : Job World α :=
  statement fun db => match f db with
    | .ok (a, db) => (.ok a, db)
    | .error e => (.error e, db)

/-- A statement that answers nothing. -/
def command (f : Database → Except Failure Database) : Job World Unit :=
  transaction fun db => (f db).map fun db => ((), db)

/-! ## Calls -/

/-- Makes a call of the web. -/
def fetch (r : Http.Request) : Job World Http.Response := do
  let cue ← answer .http (.called (.http r))
  return cue.response

/-- What a call does. -/
def perform : (c : Call) → Job World c.Answer
  | .getWorkflow tenant id => match g.stores with
    | .inMemory => findWorkflow tenant id
    | .onDatabase => statement fun db => (db.workflow? tenant id, db)
  | .createExecution record => match g.stores with
    | .inMemory => openExecution record
    | .onDatabase => statement fun db => db.createExecution record.fields
  | .updateExecution tenant id record => match g.stores with
    | .inMemory => noted .updateExecution (.updateExecution tenant id record)
    | .onDatabase => command fun db => db.updateExecution tenant id record.fields
  | .createStepRun record => match g.stores with
    | .inMemory => openStepRun record
    | .onDatabase => statement fun db => db.createStepRun record.fields
  | .updateStepRun tenant id record => match g.stores with
    | .inMemory => noted .updateStepRun (.updateStepRun tenant id record)
    | .onDatabase => command fun db => db.updateStepRun tenant id record.fields
  | .freshId => statement fun db =>
    let (id, db) := db.freshId
    (.ok id, db)
  | .sendEmail m => g.sendEmail m
  | .notify recipients payload => g.notify recipients payload
  | .insert table tenant record => match g.stores with
    | .inMemory => noted .insert (.insert table tenant record)
    | .onDatabase => statement fun db => db.insertRecord table tenant record
  | .update table tenant id fields => match g.stores with
    | .inMemory => changeRow table tenant id fields
    | .onDatabase => transaction fun db => db.updateRecord table tenant id fields
  | .http r => fetch r
  | .closeHttp => Job.lift (log (.called .closeHttp))

end Wiring

end Runbook
