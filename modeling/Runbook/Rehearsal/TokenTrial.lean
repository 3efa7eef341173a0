import Runbook.Rehearsal

/-!
# Trials of a token

Operations on one token, one after the other on one clock.

* `TokenTrial`: an operation; `TokenTrial.Report`: what has come of it.
* `TokenTrial.runAll`: tries a list of operations.
-/

namespace Runbook

/-- Work that is done under a token: it takes some time, may fail, may cancel the token itself, and returns a
value. -/
structure GuardedWork where
  seconds : Binary64 := 0
  failure : Option Failure := none
  cancels : Bool := false
  value : Value := .null

/-- An operation on a token. -/
inductive TokenTrial where
  | cancel (reason : String)
  | check
  | advance (seconds : Binary64)
  | sleep (seconds : Binary64)
  | guard (work : GuardedWork)

namespace TokenTrial

/-- The reason for which work cancels its own token. -/
def ownReason : String := "from inside"

/-- The world of a trial: whether the work of the last operation was begun. -/
abbrev Begun := Bool

/-- What work under a token does. -/
def workOf (w : GuardedWork) : Job Begun Value := do
  Job.lift (Work.change fun _ => true)
  if !w.seconds.isZero then Job.lift (Work.pause w.seconds)
  match w.failure with
  | some f => throw f
  | none => do
    if w.cancels then Job.lift (Work.cancelOwn ownReason)
    return w.value

/-- The setting of trials. -/
abbrev setting : Setting := Setting.ofJobs Begun Value

/-- What an operation does as a run. -/
def routine : TokenTrial → Attempt setting.Call setting.Answer Value
  | cancel _ => return .null
  | check => do
    Token.check
    return .null
  | advance seconds => Attempt.call (Job.lift do
      Work.pause seconds
      return .null) none
  | sleep seconds => do
    Token.sleep seconds
    return .null
  | guard w => Token.guard (workOf w)

/-- What has come of an operation: its result, whether work was begun, the time in microseconds, and the token. -/
structure Report where
  result : Except Failure Value
  begun : Bool
  time : Int
  token : TokenView

/-- Tries an operation on the token `n`. A cancellation that is set for later stays set after the operation. -/
def run (n : Nat) (s : Schedule setting) (later : Option (Binary64 × String)) (t : TokenTrial) :
    Report × Schedule setting :=
  let s : Schedule setting := { s with world := false }
  let s := match later with
    | some (seconds, reason) => s.after seconds (.cancel n reason)
    | none => s
  let s := match t with
    | cancel reason => s.cancelToken n reason
    | _ => s
  let (i, s) := s.launch t.routine.run (some n)
  let s := s.finish
  let result := match s.result? i with
    | some r => joinInterruption r
    | none => .ok .null
  (⟨result, s.world, Clock.microseconds s.clock, s.tokenView i⟩, s)

/-- Tries several operations on one token. -/
def runAllFrom (n : Nat) (s : Schedule setting) :
    List (TokenTrial × Option (Binary64 × String)) → List Report
  | [] => []
  | (t, later) :: rest =>
    let (report, s) := run n s later t
    report :: runAllFrom n s rest

/-- Tries several operations on a new token. -/
def runAll (timeout : Option Binary64) (ts : List (TokenTrial × Option (Binary64 × String))) : List Report :=
  let (n, s) := Schedule.newToken { world := false } timeout
  runAllFrom n s ts

end TokenTrial

end Runbook
