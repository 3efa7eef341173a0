import Runbook.Failure
import Runbook.Net.Http
import Runbook.Number.Binary64

/-!
# Scripts

In a rehearsal the collaborators are played from a script. Each has a list of cues, one for each call that it gets;
once they are used up it answers at once.

* `Peer`: the collaborators.
* `Cue`: what happens when a collaborator is called.
* `Script`: the cues of all collaborators.
-/

namespace Runbook

/-- A collaborator, or one kind of call of it. -/
inductive Peer where
  | getWorkflow
  | createExecution
  | updateExecution
  | createStepRun
  | updateStepRun
  | email
  | notify
  | insert
  | update
  | http
  | inbox
  | inApp
  | resolve
  deriving DecidableEq, Repr

namespace Peer

def all : List Peer := [getWorkflow, createExecution, updateExecution, createStepRun, updateStepRun, email, notify,
  insert, update, http, inbox, inApp, resolve]

/-- The name of a collaborator in a script. -/
def name : Peer → String
  | getWorkflow => "get_workflow"
  | createExecution => "create_execution"
  | updateExecution => "update_execution"
  | createStepRun => "create_step_run"
  | updateStepRun => "update_step_run"
  | email => "email"
  | notify => "notify"
  | insert => "insert"
  | update => "update"
  | http => "http"
  | inbox => "inbox"
  | inApp => "in_app"
  | resolve => "resolve"

end Peer

/-- What is done to the runs from outside. A cancellation that names no execution is for the one that was opened
last. -/
inductive Act where
  | cancel (execution reason : Option String)
  | list
  | interrupt (message : Option String)
  deriving DecidableEq, Repr

/-- What happens when a collaborator is called: acts, then time passes, then the call fails or returns. A call of
the web returns this response; a status without a phrase has the usual one. -/
structure Cue where
  acts : List Act := []
  latency : Binary64 := 0
  failure : Option Failure := none
  status : Int := 200
  reason : Option String := none
  body : String := "\x7b\x7d"

/-- The response of the web that a cue asks for. -/
def Cue.response (c : Cue) : Http.Response :=
  ⟨c.status, c.reason.getD (Http.reasonPhrase c.status), c.body⟩

/-- The cues that are left for each collaborator. -/
def Script := Peer → List Cue

namespace Script

/-- The script in which all collaborators answer at once. -/
def empty : Script := fun _ => []

instance : Inhabited Script := ⟨empty⟩

/-- The next cue of a collaborator. -/
def next (s : Script) (p : Peer) : Cue := (s p).headD {}

/-- The script without the next cue of a collaborator. -/
def advance (s : Script) (p : Peer) : Script := fun q => if q = p then (s q).drop 1 else s q

end Script

end Runbook
