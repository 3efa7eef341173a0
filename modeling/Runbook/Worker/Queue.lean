import Runbook.Failure
import Runbook.Settings

/-!
# The task queue

Runs in the background go through one queue. Where runs have a deadline, the limits of the queue's tasks lie
above it, so that a run can close its own record first.

* `Queue.ofSettings`: the configuration of the queue.
-/

namespace Runbook

/-- The configuration of the task queue; times in seconds. -/
structure Queue where
  broker : String
  results : String
  softLimit : Int
  hardLimit : Int
  name : String := "workflows"
  routes : List (String × String) := [("worker.tasks.workflow.*", "workflows")]
  resultsExpire : Nat := 86400
  acknowledgeLate : Bool := true
  prefetch : Nat := 1
  serializer : String := "json"
  timezone : String := "UTC"

namespace Queue

/-- The limit of a task whose run has no deadline. -/
def standardLimit : Int := 300

/-- The time between the deadline of a run and the limit of its task. -/
def grace : Int := 30

/-- The time after which a task is asked to end. A deadline of zero counts as none. -/
def softLimitOf (timeout : Option Binary64) : Except Failure Int :=
  match timeout with
  | none => .ok standardLimit
  | some t =>
    if t.isZero then .ok standardLimit
    else match t.truncate? with
      | some n => .ok (n + grace)
      | none => .error (.misuse (.notAnInteger t))

/-- The configuration of the queue; a task is ended by force at twice its limit. -/
def ofSettings (s : Settings) : Except Failure Queue := do
  let soft ← softLimitOf s.timeout
  return { broker := s.redisUrl, results := s.redisUrl, softLimit := soft, hardLimit := soft * 2 }

end Queue

end Runbook
