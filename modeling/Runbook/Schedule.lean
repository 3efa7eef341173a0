import Runbook.Token
import Runbook.Work

/-!
# Schedules

Several runs share one clock. Each goes on until it waits for something: for time to pass, for its token to
be cancelled, or for a call with a time limit. What is due is kept in a queue of signals and taken in order;
when nothing is due, the clock moves to the next timer.

A call with a limit is done beside its run, by an assistant of the run, so that either the end of the work or
the limit can wake the run. The assistant begins with the next signal, and its end reaches the run by way of a
release. If the limit comes first the work is withdrawn, and the run goes on once the assistant has ended.

* `Schedule`: the state of the clock, the queue, the timers, the tokens and the runs.
* `Schedule.launch`: adds a run; `Schedule.result?`: what a run has ended with.
* `Schedule.cancelToken` and `Schedule.interrupt`: the two ways in which a run is told to end.
-/

namespace Runbook

/-- What the runs of a schedule are about: the world, the calls with their answers, how a call is done, and
what a run ends with. -/
structure Setting where
  World : Type
  Call : Type
  Answer : Call → Type
  perform : (c : Call) → Work World (Except Failure (Answer c))
  Result : Type

namespace Setting

variable (S : Setting)

/-- The rest of a run. -/
abbrev Rest := Routine S.Call S.Answer S.Result

/-- Work that ends with the rest of the run it is done for. -/
abbrev Task := Work S.World S.Rest

end Setting

/-- Something that is waited for, and whether it has come. -/
structure Await where
  id : Nat
  settled : Bool := false
  deriving DecidableEq, Repr

/-- What an assistant is to do: some work, or to watch for a cancellation. -/
inductive Errand (S : Setting) where
  | work (task : S.Task)
  | watch (cancelled : S.Rest)

/-- Where an assistant is with its errand. -/
inductive Assistant (S : Setting) where
  | called (errand : Errand S)
  | pausing (await : Await) (task : S.Task)
  | watching (await : Await) (cancelled : S.Rest)
  | ended (rest : Option S.Rest)

/-- Where a run is. `onFailure` is how it goes on if what it waits for fails. -/
inductive Stage (S : Setting) where
  | ready (rest : S.Rest)
  | active
  | pausing (await : Await) (task : S.Task) (onFailure : Failure → S.Rest)
  | limited (await : Await) (assistant : Assistant S) (withdrawn : Bool) (onFailure : Failure → S.Rest)
  | draining (await : Await) (assistant : Assistant S) (withdrawn : Bool) (limit : Nat) (cause : Failure)
      (onFailure : Failure → S.Rest)
  | ended (result : Except String S.Result)

/-- A run: where it is, the number of its token, and the message of an interruption that is to reach it. -/
structure Fiber (S : Setting) where
  stage : Stage S
  token : Option Nat := none
  interruption : Option String := none

/-- Something that is due. -/
inductive Signal (S : Setting) where
  /-- A run goes on, interrupted or not. -/
  | step (fiber : Nat) (interruption : Option String)
  /-- The assistant of a run goes on, or ends because its work is withdrawn. -/
  | assist (fiber : Nat) (withdraw : Bool)
  /-- A run that waits for this is to go on. -/
  | release (fiber await : Nat)
  /-- A pause of a run or of its assistant is over. -/
  | settle (fiber await : Nat)
  /-- Something happens beside the runs, for one of them. -/
  | occur (fiber : Nat) (work : Work S.World Unit)
  /-- A token is cancelled. -/
  | cancel (token : Nat) (reason : String)

/-- A signal that is due at a time of the clock. -/
structure Timer (S : Setting) where
  due : Binary64
  signal : Signal S

/-- An execution on the list of running ones, with the number of its token. -/
structure Listed where
  execution : String
  workflow : String
  tenant : String
  token : Nat

/-- A list with an execution at its end, or in the place of one of the same name. -/
def Listed.put (r : Listed) : List Listed → List Listed
  | [] => [r]
  | x :: rest => if x.execution == r.execution then r :: rest else x :: put r rest

/-- The state of a schedule. -/
structure Schedule (S : Setting) where
  world : S.World
  clock : Binary64 := Binary64.zero false
  queue : List (Signal S) := []
  timers : List (Timer S) := []
  fibers : List (Fiber S) := []
  tokens : List Token := []
  running : List Listed := []
  awaits : Nat := 0

/-- The wait of an assistant that watches for a cancellation, settled; none if it does not watch. -/
def Assistant.noticed {S : Setting} : Assistant S → Option (Assistant S)
  | .watching a rest => if a.settled then none else some (.watching { a with settled := true } rest)
  | _ => none

/-- Whether a run has ended. -/
def Fiber.isOver {S : Setting} (f : Fiber S) : Bool :=
  match f.stage with
  | .ended _ => true
  | _ => false

/-- Whether a signal is the end of a wait, or the limit of one. -/
def Signal.isFor {S : Setting} (fiber await : Nat) : Signal S → Bool
  | .release f a | .settle f a => f == fiber && a == await
  | _ => false

/-- Work up to its next pause. -/
inductive Progress (World α : Type) where
  | finished (result : α)
  | paused (seconds : Binary64) (rest : Work World α)

namespace Schedule

variable {S : Setting} {α : Type}

/-! ## Queue and timers -/

/-- Puts a signal at the end of the queue. -/
def signal (s : Schedule S) (x : Signal S) : Schedule S := { s with queue := s.queue ++ [x] }

/-- Timers in the order of their times; of equal times the one that was set first. -/
def insertTimer (t : Timer S) : List (Timer S) → List (Timer S)
  | [] => [t]
  | u :: rest => if t.due.lt u.due then t :: u :: rest else u :: insertTimer t rest

/-- Sets a timer so many seconds ahead. -/
def after (s : Schedule S) (seconds : Binary64) (x : Signal S) : Schedule S :=
  { s with timers := insertTimer ⟨s.clock.add seconds, x⟩ s.timers }

/-- Takes back the timers of a wait. -/
def disarm (s : Schedule S) (fiber await : Nat) : Schedule S :=
  { s with timers := s.timers.filter fun t => !Signal.isFor fiber await t.signal }

/-- A new number for something to wait for. -/
def newAwait (s : Schedule S) : Await × Schedule S := (⟨s.awaits, false⟩, { s with awaits := s.awaits + 1 })

/-! ## Runs and tokens -/

/-- Changes the record of a run. -/
def modifyFiber (s : Schedule S) (i : Nat) (f : Fiber S → Fiber S) : Schedule S :=
  { s with fibers := s.fibers.modify i f }

/-- Where a run is. -/
def stage? (s : Schedule S) (i : Nat) : Option (Stage S) := s.fibers[i]?.map (·.stage)

/-- Says where a run is. -/
def setStage (s : Schedule S) (i : Nat) (stage : Stage S) : Schedule S :=
  s.modifyFiber i fun f => { f with stage := stage }

/-- A new token with a deadline after so many seconds. -/
def newToken (s : Schedule S) (timeout : Option Binary64) : Nat × Schedule S :=
  (s.tokens.length, { s with tokens := s.tokens ++ [{ deadline := timeout.map s.clock.add }] })

/-- The number of the token of a run. -/
def tokenOf? (s : Schedule S) (i : Nat) : Option Nat := s.fibers[i]?.bind (·.token)

/-- The token of a run and the clock. A run that has no token yet is bounded by nothing. -/
def tokenView (s : Schedule S) (i : Nat) : TokenView :=
  ⟨((s.tokenOf? i).bind fun n => s.tokens[n]?).getD {}, s.clock⟩

/-- Gives a run a token unless it has one. -/
def openToken (s : Schedule S) (i : Nat) (timeout : Option Binary64) : Schedule S :=
  match s.tokenOf? i with
  | some _ => s
  | none =>
    let (n, s) := s.newToken timeout
    s.modifyFiber i fun f => { f with token := some n }

/-- The running executions and whether they are cancelled. -/
def runningList (s : Schedule S) : List Running :=
  s.running.map fun r => ⟨r.execution, r.workflow, r.tenant, (s.tokens[r.token]?.bind (·.cancelled)).isSome⟩

/-- Tells the assistant of a run, if it watches for it, that the token is cancelled. -/
def notice (s : Schedule S) (i : Nat) : Schedule S :=
  match s.stage? i with
  | some (.limited a assistant withdrawn onFailure) =>
    match assistant.noticed with
    | some assistant => (s.setStage i (.limited a assistant withdrawn onFailure)).signal (.assist i false)
    | none => s
  | some (.draining a assistant withdrawn limit cause onFailure) =>
    match assistant.noticed with
    | some assistant =>
      (s.setStage i (.draining a assistant withdrawn limit cause onFailure)).signal (.assist i false)
    | none => s
  | _ => s

/-- Cancels a token and tells those who watch for it. -/
def cancelToken (s : Schedule S) (n : Nat) (reason : String) : Schedule S :=
  let s := { s with tokens := s.tokens.modify n fun t => { t with cancelled := some reason } }
  ((List.range s.fibers.length).filter fun i => s.tokenOf? i == some n).foldl notice s

/-- Cancels a running execution, and whether it was running. -/
def cancelExecution (s : Schedule S) (execution reason : String) : Bool × Schedule S :=
  match s.running.find? (·.execution == execution) with
  | some r => (true, s.cancelToken r.token reason)
  | none => (false, s)

/-- Interrupts a run: at once if it waits, and where it next waits otherwise. -/
def interrupt (s : Schedule S) (i : Nat) (message : String) : Schedule S :=
  let later := s.modifyFiber i fun f => { f with interruption := some message }
  let now (stage : Stage S) := (s.setStage i stage).signal (.step i (some message))
  match s.stage? i with
  | some (.pausing a task onFailure) =>
    if a.settled then later
    else (now (.pausing { a with settled := true } task onFailure)).disarm i a.id
  | some (.limited a assistant withdrawn onFailure) =>
    if a.settled then later else now (.limited { a with settled := true } assistant withdrawn onFailure)
  | some (.draining a assistant withdrawn limit cause onFailure) =>
    if a.settled then later
    else now (.draining { a with settled := true } assistant withdrawn limit cause onFailure)
  | some (.ended _) | none => s
  | some (.ready _) | some .active => later

/-! ## Beginning and end -/

/-- Adds a run, to begin with the next signal, and its number. -/
def launch (s : Schedule S) (rest : S.Rest) (token : Option Nat) : Nat × Schedule S :=
  let i := s.fibers.length
  let s : Schedule S := { s with fibers := s.fibers ++ [{ stage := .ready rest, token := token }] }
  (i, s.signal (.step i none))

/-- What a run has ended with: its result, or the message of the interruption that ended it. -/
def result? (s : Schedule S) (i : Nat) : Option (Except String S.Result) :=
  match s.stage? i with
  | some (.ended result) => some result
  | _ => none

end Schedule

end Runbook
