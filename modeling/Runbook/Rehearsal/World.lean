import Runbook.Database.Audit
import Runbook.Database.Records
import Runbook.Email.Delivery
import Runbook.Engine.Call
import Runbook.Rehearsal.Script
import Runbook.Work

/-!
# The world of a rehearsal

* `World`: the script, the journal of what has happened, the database and the other things that last.
* `World.play`: plays the next cue of a collaborator.
-/

namespace Runbook

/-- Something that is noted in the journal. -/
inductive Occurrence where
  /-- A record was opened under an id. -/
  | opened (id : String) (call : Call)
  /-- A collaborator of the engine was called. -/
  | called (call : Call)
  | inbox (recipient : Recipient) (payload : Payload)
  | inApp (recipient : Recipient) (payload : Payload)
  | resolve (recipient : Recipient)
  | cancelled (execution : Option String) (found : Bool)
  | listed (running : List Running)
  | interrupted

/-- An entry of the journal; the time is in microseconds. -/
structure Event where
  time : Int
  occurrence : Occurrence

/-- What lasts through a rehearsal. -/
structure World where
  script : Script := .empty
  journal : List Event := []
  mail : List MailCommand := []
  database : Database := {}
  /-- The workflows that are kept outside the database. -/
  workflows : List StoredWorkflow := []
  /-- The ids that rows outside the database have. -/
  existing : List (Table × String) := []
  executions : Nat := 0
  stepRuns : Nat := 0
  /-- The execution that was opened last. -/
  last : Option String := none
  deriving Inhabited

namespace World

/-- Notes something in the journal. -/
def log (o : Occurrence) : Work World Unit := do
  let reading ← Work.clock
  Work.change fun w => { w with journal := w.journal ++ [⟨Clock.microseconds reading, o⟩] }

/-- Does something to the runs and notes it. -/
def act : Act → Work World Unit
  | .cancel execution? reason? => do
    let w ← Work.world
    let execution? := execution?.or w.last
    let found ← match execution? with
      | some e => Work.cancel e (reason?.getD standardReason)
      | none => pure false
    log (.cancelled execution? found)
  | .list => do
    let running ← Work.running
    log (.listed running)
  | .interrupt message? => do
    log .interrupted
    Work.interrupt (message?.getD "")

/-- Does several things to the runs. -/
def actAll : List Act → Work World Unit
  | [] => return ()
  | a :: rest => do
    act a
    actAll rest

/-- Plays the next cue of a collaborator. -/
def play (p : Peer) : Job World Cue := do
  let cue ← Job.lift (Work.update fun (w : World) => (w.script.next p, { w with script := w.script.advance p }))
  Job.lift (actAll cue.acts)
  if !cue.latency.isZero then Job.lift (Work.pause cue.latency)
  match cue.failure with
  | some f => throw f
  | none => return cue

/-- Notes a call and plays the next cue of the collaborator. -/
def answer (p : Peer) (o : Occurrence) : Job World Cue := do
  Job.lift (log o)
  play p

/-- A text that counts from one: `stem-1`, `stem-2` and so on. -/
def numbered (stem : String) (n : Nat) : String := stem ++ String.ofList (Digits.ofNat n)

end World

end Runbook
