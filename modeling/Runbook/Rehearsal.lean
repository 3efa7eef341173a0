import Runbook.Engine
import Runbook.Rehearsal.Wiring
import Runbook.Schedule.Turn

/-!
# Rehearsals

A rehearsal runs workflows against played collaborators and on a clock of its own, several at once if asked. What has
happened stands in the journal of its world.

* `Rehearsal`: an engine with its collaborators and the schedule of its runs.
* `Rehearsal.run`: starts runs together and goes on until all have ended.
* `Rehearsal.act`: does something to the runs between two calls.
-/

namespace Runbook

/-- The setting of jobs that are done one after the other: a call is the job itself. -/
def Setting.ofJobs (World α : Type) : Setting where
  World := World
  Call := Job World α
  Answer _ := α
  perform job := job.run
  Result := Except Failure α

/-- The setting of runs of workflows. -/
def Wiring.setting (g : Wiring) : Setting where
  World := World
  Call := Call
  Answer := Call.Answer
  perform c := (g.perform c).run
  Result := Except Failure Execution

/-- How a run has ended, an interruption being a failure like others. -/
def joinInterruption {α : Type} : Except String (Except Failure α) → Except Failure α
  | .ok result => result
  | .error message => .error (.interrupted message)

/-- Does a job on a schedule of jobs, and what has come of it. -/
def Schedule.doJob {World α : Type} (s : Schedule (Setting.ofJobs World α)) (job : Job World α) :
    Option (Except Failure α) × Schedule (Setting.ofJobs World α) :=
  let routine : Attempt (Job World α) (fun _ => α) α := Attempt.call job none
  let (i, s) := s.launch routine.run none
  let s := s.finish
  ((s.result? i).map joinInterruption, s)

/-- The token that a caller hands over with a run: its time limit, and the reason it is cancelled for already. -/
structure OwnToken where
  timeout : Option Binary64 := none
  cancelled : Option String := none

/-- A run that is asked for, with acts at times counted from its start. -/
structure RunRequest where
  order : Order
  token : Option OwnToken := none
  timeline : List (Binary64 × Act) := []

/-- An engine, who answers its calls, and the schedule of its runs. -/
structure Rehearsal where
  engine : Engine
  wiring : Wiring
  schedule : Schedule wiring.setting

namespace Rehearsal

/-- A rehearsal in which nothing has happened yet. -/
def start (engine : Engine) (wiring : Wiring) (world : World) : Rehearsal := ⟨engine, wiring, { world }⟩

/-- The world as it is. -/
def world (r : Rehearsal) : World := r.schedule.world

/-- Changes the world between two calls. -/
def modifyWorld (r : Rehearsal) (f : World → World) : Rehearsal :=
  { r with schedule := { r.schedule with world := f r.schedule.world } }

/-- Sets the clock back to its start, for runs that have a clock of their own. -/
def restartClock (r : Rehearsal) : Rehearsal := { r with schedule := { world := r.schedule.world } }

/-- The token of a run. -/
def openToken (r : Rehearsal) : Option OwnToken → Option Nat × Rehearsal
  | none => (none, r)
  | some t =>
    let (n, s) := r.schedule.newToken t.timeout
    let s := match t.cancelled with
      | some reason => s.cancelToken n reason
      | none => s
    (some n, { r with schedule := s })

/-- Adds a run, and its number. -/
def launch (r : Rehearsal) (q : RunRequest) : Nat × Rehearsal :=
  let i := r.schedule.fibers.length
  let (token, r) := r.openToken q.token
  let s := q.timeline.foldl (fun s (at_, a) => s.after at_ (.occur i (World.act a))) r.schedule
  let (i, s) := s.launch (r.engine.run q.order).run token
  (i, { r with schedule := s })

/-- Adds several runs. -/
def launchAll (r : Rehearsal) : List RunRequest → List Nat × Rehearsal
  | [] => ([], r)
  | q :: rest =>
    let (i, r) := r.launch q
    let (is, r) := launchAll r rest
    (i :: is, r)

/-- Starts runs together and goes on until all have ended, with what they have ended with. -/
def run (r : Rehearsal) (qs : List RunRequest) : List (Except Failure Execution) × Rehearsal :=
  let (is, r) := r.launchAll qs
  let s := r.schedule.finish
  (is.filterMap fun i => (s.result? i).map joinInterruption, { r with schedule := s })

/-- Does something to the runs between two calls. -/
def act (r : Rehearsal) (a : Act) : Rehearsal :=
  { r with schedule := (r.schedule.work r.schedule.fibers.length (World.act a)).2 }

end Rehearsal

end Runbook
