import Runbook.Failure
import Runbook.Program

/-!
# Work

What a collaborator does when it is called: it changes the world around the runs, lets time pass, and may
look at the running executions or cancel one of them.

* `Work`: a program of such effects.
* `Work.pause`, `Work.change`, `Work.cancel` and so on: the single effects.
* `Job`: work that may fail.
-/

namespace Runbook

/-- An execution on the list of running ones. -/
structure Running where
  execution : String
  workflow : String
  tenant : String
  cancelled : Bool
  deriving DecidableEq, Repr

/-- The reason of a cancellation that gives none. -/
def standardReason : String := "Execution cancelled"

/-- A single effect. -/
inductive Effect (World : Type) where
  /-- Changes the world. -/
  | change (f : World → World)
  /-- The reading of the clock. -/
  | clock
  /-- Lets so many seconds pass. -/
  | pause (seconds : Binary64)
  /-- The running executions. -/
  | running
  /-- Cancels a running execution. -/
  | cancel (execution reason : String)
  /-- Cancels the token of the run that this work is done for. -/
  | cancelOwn (reason : String)
  /-- Interrupts the run that this work is done for, where it waits. -/
  | interrupt (message : String)

/-- What an effect answers: a change answers the world as it was before, a cancellation whether the execution
was running. -/
def Effect.Reply {World : Type} : Effect World → Type
  | change _ => World
  | clock => Binary64
  | pause _ => Unit
  | running => List Running
  | cancel .. => Bool
  | cancelOwn _ => Unit
  | interrupt _ => Unit

/-- What a collaborator does when it is called. -/
abbrev Work (World : Type) := Program (Effect World) Effect.Reply

namespace Work

variable {World : Type}

/-- A single effect. -/
def effect (e : Effect World) : Work World e.Reply := Program.request e

/-- Changes the world. -/
def change (f : World → World) : Work World Unit := do
  let _ ← effect (.change f)
  return ()

/-- The world as it is. -/
def world : Work World World := effect (.change id)

/-- Changes the world and answers something about it. -/
def update {α : Type} (f : World → α × World) : Work World α := do
  let before ← effect (.change fun w => (f w).2)
  return (f before).1

/-- The reading of the clock. -/
def clock : Work World Binary64 := effect .clock

/-- Lets so many seconds pass. -/
def pause (seconds : Binary64) : Work World Unit := effect (.pause seconds)

/-- The running executions. -/
def running : Work World (List Running) := effect .running

/-- Cancels a running execution. -/
def cancel (execution reason : String) : Work World Bool := effect (.cancel execution reason)

/-- Cancels the token of the run that this work is done for. -/
def cancelOwn (reason : String) : Work World Unit := effect (.cancelOwn reason)

/-- Interrupts the run that this work is done for. -/
def interrupt (message : String) : Work World Unit := effect (.interrupt message)

end Work

/-- Work that may fail. What it has done before it fails stays done. -/
abbrev Job (World : Type) := ExceptT Failure (Work World)

namespace Job

variable {World α : Type}

/-- Work that does not fail. -/
def lift (w : Work World α) : Job World α := ExceptT.lift w

/-- Changes the world and answers something about it, or fails; the change stays in either case. -/
def update (f : World → Except Failure α × World) : Job World α := ExceptT.mk (Work.update f)

/-- Changes the world unless that fails. -/
def change (f : World → Except Failure World) : Job World Unit :=
  update fun w => match f w with
    | .ok w => (.ok (), w)
    | .error e => (.error e, w)

end Job

end Runbook
