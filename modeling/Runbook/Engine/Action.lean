import Runbook.Engine.Call
import Runbook.Registry

/-!
# Performing actions

* `Action.perform`: does what an action step asks for, on behalf of a user of a tenant.
-/

namespace Runbook

/-- On whose behalf a run acts. -/
structure Actor where
  tenant : String
  user : String

namespace Action

/-- The record of a new row: an id and a note of its origin, overridden by the data; the tenant is always
that of the run. -/
def newRecord (actor : Actor) (id : String) (now : DateTime) (data : Fields) : Fields :=
  (Fields.merge [("id", .str id), ("created_at", .dateTime now), ("created_by", .str actor.user)] data).set
    "tenant_id" (.str actor.tenant)

/-- The fields that change in a row: the data and a note of the change. The tenant never changes. -/
def changedFields (actor : Actor) (now : DateTime) (data : Fields) : Fields :=
  ((data.set "updated_at" (.dateTime now)).set "updated_by" (.str actor.user)).erase "tenant_id"

/-- What a notification of a workflow carries besides its text. -/
def notificationMetadata : Entries := [(.str "source", .str "workflow")]

/-- The sender of an email: the one of the action, or the standard one if that is missing or empty. -/
def senderOf (standard : String) : Option String → String
  | some s => if s.isEmpty then standard else s
  | none => standard

/-- Does what an action asks for. -/
def perform (registry : Registry) (standardSender : String) (actor : Actor) : Action → Run Unit
  | .sendEmail addressees subject body sender =>
    Run.guarded (.sendEmail ⟨senderOf standardSender sender, addressees, subject, body⟩)
  | .createRecord table data => do
    registry.checkTable table
    let id ← Run.call .freshId
    let now ← Run.now
    Run.guarded (.insert table actor.tenant (newRecord actor id now data))
  | .updateRecord table record data => do
    registry.checkTable table
    let now ← Run.now
    let _ ← Run.guarded (.update table actor.tenant record.key (changedFields actor now data))
    return ()
  | .sendNotification recipients title message severity category priority =>
    Run.guarded (.notify (recipients.map (·.within actor.tenant))
      { title, message, severity, category, priority, metadata := notificationMetadata })

end Action

end Runbook
