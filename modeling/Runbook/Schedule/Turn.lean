import Runbook.Schedule

/-!
# Running a schedule

* `Activity`, `Moment`: what is being done, and the state in which it is done.
* `Schedule.work`: does work up to its next pause.
* `Schedule.drive`: goes on with a run up to its next wait.
* `Schedule.take`: what is done when a signal is taken.
* `Schedule.turn?`: takes one signal, or moves the clock.
* `Schedule.finish`: goes on until every run has ended.
-/

namespace Runbook

/-- What is being done: nothing, a run goes on, a run does work itself and goes on with what follows, the assistant
of a run works, or something happens beside the runs. -/
inductive Activity (S : Setting) where
  | idle
  | run (fiber : Nat) (rest : S.Rest)
  | task (fiber : Nat) (task : S.Task) (onFailure : Failure → S.Rest)
  | aid (fiber : Nat) (task : S.Task)
  | beside (fiber : Nat) (work : Work S.World Unit)

/-- What is being done, and the state in which it is done. -/
structure Moment (S : Setting) where
  activity : Activity S
  schedule : Schedule S

namespace Schedule

variable {S : Setting} {α : Type}

/-! ## Going on with work and with runs -/

/-- Does work for a run up to its next pause. -/
def work (i : Nat) : Work S.World α → Schedule S → Progress S.World α × Schedule S
  | .done a, s => (.finished a, s)
  | .ask (.change f) next, s => work i (next s.world) { s with world := f s.world }
  | .ask .clock next, s => work i (next s.clock) s
  | .ask (.pause seconds) next, s => (.paused seconds (next ()), s)
  | .ask .running next, s => work i (next s.runningList) s
  | .ask (.cancel execution reason) next, s =>
    let (found, s) := s.cancelExecution execution reason
    work i (next found) s
  | .ask (.cancelOwn reason) next, s =>
    work i (next ()) (match s.tokenOf? i with
      | some n => s.cancelToken n reason
      | none => s)
  | .ask (.interrupt message) next, s => work i (next ()) (s.interrupt i message)

/-- Leaves a run waiting; an interruption that is due for it reaches it there. -/
def suspend (s : Schedule S) (i : Nat) (stage : Stage S) : Schedule S :=
  let s := s.setStage i stage
  match s.fibers[i]?.bind (·.interruption) with
  | some message => (s.modifyFiber i fun f => { f with interruption := none }).interrupt i message
  | none => s

/-- Ends a run; an interruption that is due for it takes the place of its result. -/
def finishRun (s : Schedule S) (i : Nat) (result : S.Result) : Schedule S :=
  match s.fibers[i]?.bind (·.interruption) with
  | some message =>
    s.modifyFiber i fun f => { f with stage := .ended (.error message), interruption := none }
  | none => s.setStage i (.ended (.ok result))

/-- Leaves a run waiting for a pause to end. -/
def beginPause (s : Schedule S) (i : Nat) (seconds : Binary64) (task : S.Task)
    (onFailure : Failure → S.Rest) : Schedule S :=
  let (a, s) := s.newAwait
  (s.after seconds (.settle i a.id)).suspend i (.pausing a task onFailure)

/-- Sends the assistant of a run on an errand with a limit. With no time at all the errand is withdrawn before
it is begun. -/
def beginErrand (s : Schedule S) (i : Nat) (limit : Binary64) (errand : Errand S)
    (onFailure : Failure → S.Rest) : Schedule S :=
  let (a, s) := s.newAwait
  if limit.le (Binary64.zero false) then
    (s.signal (.assist i false)).suspend i (.draining a (.called errand) true a.id (.timedOut "") onFailure)
  else
    ((s.after limit (.release i a.id)).signal (.assist i false)).suspend i
      (.limited a (.called errand) false onFailure)

/-- The run goes on with the answer to a watch: whether the token was cancelled. -/
def watchFailure (next : Except Failure Bool → S.Rest) : Failure → S.Rest
  | .timedOut _ => next (.ok false)
  | f => next (.error f)

/-- Puts an execution of a run on the list of running ones, under the token of the run. -/
def enlist (s : Schedule S) (i : Nat) (execution workflow tenant : String) : Schedule S :=
  match s.tokenOf? i with
  | some n => { s with running := Listed.put ⟨execution, workflow, tenant, n⟩ s.running }
  | none => s

/-- Takes an execution off the list of running ones. -/
def delist (s : Schedule S) (execution : String) : Schedule S :=
  { s with running := s.running.filter (·.execution != execution) }

/-- A run goes on up to its next wait, or to its end. -/
def drive (i : Nat) : S.Rest → Schedule S → Schedule S
  | .done result, s => s.finishRun i result
  | .ask .now next, s => drive i (next s.clock) s
  | .ask .token next, s => drive i (next (s.tokenView i)) s
  | .ask (.openToken timeout) next, s => drive i (next ()) (s.openToken i timeout)
  | .ask (.enlist execution workflow tenant) next, s =>
    drive i (next ()) (s.enlist i execution workflow tenant)
  | .ask (.delist execution) next, s => drive i (next ()) (s.delist execution)
  | .ask (.awaitCancel limit) next, s =>
    s.beginErrand i limit (.watch (next (.ok true))) (watchFailure next)
  | .ask (.call c (some limit)) next, s =>
    s.beginErrand i limit (.work (next <$> S.perform c)) fun f => next (.error f)
  | .ask (.call c none) next, s =>
    match work i (S.perform c) s with
    | (.finished answer, s) => drive i (next answer) s
    | (.paused seconds rest, s) => s.beginPause i seconds (next <$> rest) fun f => next (.error f)

/-- A run goes on with work that it does itself, and then with what follows. -/
def driveTask (i : Nat) (task : S.Task) (onFailure : Failure → S.Rest) (s : Schedule S) : Schedule S :=
  match work i task s with
  | (.finished rest, s) => drive i rest s
  | (.paused seconds rest, s) => s.beginPause i seconds rest onFailure

/-! ## Assistants -/

/-- Puts the assistant of a run in a new state. -/
def setAssistant (s : Schedule S) (i : Nat) (assistant : Assistant S) : Schedule S :=
  s.modifyFiber i fun f => { f with stage := match f.stage with
    | .limited a _ withdrawn onFailure => .limited a assistant withdrawn onFailure
    | .draining a _ withdrawn limit cause onFailure => .draining a assistant withdrawn limit cause onFailure
    | stage => stage }

/-- What the run waits for while its assistant is busy. -/
def awaitOf? (s : Schedule S) (i : Nat) : Option Nat :=
  match s.stage? i with
  | some (.limited a ..) | some (.draining a ..) => some a.id
  | _ => none

/-- Ends an assistant and sends its release on the way. -/
def endAssistant (s : Schedule S) (i : Nat) (rest : Option S.Rest) : Schedule S :=
  let s := s.setAssistant i (.ended rest)
  match s.awaitOf? i with
  | some a => s.signal (.release i a)
  | none => s

/-- An assistant goes on with work up to its next pause, or to its end. -/
def assistTask (s : Schedule S) (i : Nat) (task : S.Task) : Schedule S :=
  match work i task s with
  | (.finished rest, s) => s.endAssistant i (some rest)
  | (.paused seconds rest, s) =>
    let (a, s) := s.newAwait
    (s.after seconds (.settle i a.id)).setAssistant i (.pausing a rest)

/-- The assistant of a run and whether its work is withdrawn. -/
def assistantOf? (s : Schedule S) (i : Nat) : Option (Assistant S × Bool) :=
  match s.stage? i with
  | some (.limited _ assistant withdrawn _) => some (assistant, withdrawn)
  | some (.draining _ assistant withdrawn ..) => some (assistant, withdrawn)
  | _ => none

/-- An assistant begins its errand; a token that is cancelled already need not be watched. -/
def beginAssist (s : Schedule S) (i : Nat) : Errand S → Moment S
  | .work task => ⟨.aid i task, s⟩
  | .watch cancelled =>
    if (s.tokenView i).token.cancelled.isSome then ⟨.idle, s.endAssistant i (some cancelled)⟩
    else
      let (a, s) := s.newAwait
      ⟨.idle, s.setAssistant i (.watching a cancelled)⟩

/-- The assistant of a run goes on, or ends if its work is withdrawn. -/
def assist (s : Schedule S) (i : Nat) (withdraw : Bool) : Moment S :=
  match s.assistantOf? i with
  | none | some (.ended _, _) => ⟨.idle, s⟩
  | some (assistant, withdrawn) =>
    if withdraw || withdrawn then ⟨.idle, s.endAssistant i none⟩
    else match assistant with
      | .called errand => s.beginAssist i errand
      | .pausing _ task => ⟨.aid i task, s⟩
      | .watching _ cancelled => ⟨.idle, s.endAssistant i (some cancelled)⟩
      | .ended _ => ⟨.idle, s⟩

/-- The run withdraws the work of its assistant and waits for the assistant to end. The assistant is told
where it waits; one that is on its way already ends when it gets there. -/
def drain (s : Schedule S) (i : Nat) (assistant : Assistant S) (limit : Nat) (cause : Failure)
    (onFailure : Failure → S.Rest) : Schedule S :=
  let (a, s) := s.newAwait
  let told (w : Await) (assistant : Assistant S) : Schedule S :=
    if w.settled then s.suspend i (.draining a assistant true limit cause onFailure)
    else ((s.disarm i w.id).signal (.assist i true)).suspend i
      (.draining a assistant false limit cause onFailure)
  match assistant with
  | .pausing w task => told w (.pausing { w with settled := true } task)
  | .watching w rest => told w (.watching { w with settled := true } rest)
  | assistant => s.suspend i (.draining a assistant true limit cause onFailure)

/-! ## Signals -/

/-- A run goes on from where it is. -/
def step (s : Schedule S) (i : Nat) (interruption : Option String) : Moment S :=
  match s.fibers[i]? with
  | none => ⟨.idle, s⟩
  | some fiber =>
    let interruption := interruption.or fiber.interruption
    let s := s.modifyFiber i fun f => { f with stage := .active, interruption := none }
    match fiber.stage, interruption with
    | .ready _, some message => ⟨.idle, s.setStage i (.ended (.error message))⟩
    | .ready rest, none => ⟨.run i rest, s⟩
    | .pausing _ _ onFailure, some message => ⟨.run i (onFailure (.interrupted message)), s⟩
    | .pausing _ task onFailure, none => ⟨.task i task onFailure, s⟩
    | .limited a (.ended (some rest)) _ _, _ => ⟨.run i rest, s.disarm i a.id⟩
    | .limited a assistant _ onFailure, some message =>
      ⟨.idle, s.drain i assistant a.id (.interrupted message) onFailure⟩
    | .limited a assistant _ onFailure, none => ⟨.idle, s.drain i assistant a.id (.timedOut "") onFailure⟩
    | .draining _ _ _ limit _ onFailure, some message =>
      ⟨.run i (onFailure (.interrupted message)), s.disarm i limit⟩
    | .draining _ (.ended (some rest)) _ limit (.timedOut _) _, none => ⟨.run i rest, s.disarm i limit⟩
    | .draining _ _ _ limit cause onFailure, none => ⟨.run i (onFailure cause), s.disarm i limit⟩
    | .active, _ => ⟨.idle, s⟩
    | .ended result, _ => ⟨.idle, s.setStage i (.ended result)⟩

/-- What a run waits for has come. -/
def release (s : Schedule S) (i await : Nat) : Schedule S :=
  let isNow (a : Await) : Bool := a.id == await && !a.settled
  match s.stage? i with
  | some (.limited a assistant withdrawn onFailure) =>
    if isNow a then
      (s.setStage i (.limited { a with settled := true } assistant withdrawn onFailure)).signal (.step i none)
    else s
  | some (.draining a assistant withdrawn limit cause onFailure) =>
    if isNow a then
      (s.setStage i (.draining { a with settled := true } assistant withdrawn limit cause onFailure)).signal
        (.step i none)
    else s
  | _ => s

/-- A pause is over. -/
def settle (s : Schedule S) (i await : Nat) : Schedule S :=
  let isNow (a : Await) : Bool := a.id == await && !a.settled
  match s.stage? i with
  | some (.pausing a task onFailure) =>
    if isNow a then
      (s.setStage i (.pausing { a with settled := true } task onFailure)).signal (.step i none)
    else s
  | _ =>
    match s.assistantOf? i with
    | some (.pausing a task, _) =>
      if isNow a then
        (s.setAssistant i (.pausing { a with settled := true } task)).signal (.assist i false)
      else s
    | _ => s

/-- What is done when a signal is taken. -/
def take (s : Schedule S) : Signal S → Moment S
  | .step i interruption => s.step i interruption
  | .assist i withdraw => s.assist i withdraw
  | .release i await => ⟨.idle, s.release i await⟩
  | .settle i await => ⟨.idle, s.settle i await⟩
  | .occur i w => ⟨.beside i w, s⟩
  | .cancel n reason => ⟨.idle, s.cancelToken n reason⟩

end Schedule

/-- Does what is being done, up to the next wait. -/
def Moment.carryOut {S : Setting} (m : Moment S) : Schedule S :=
  match m.activity with
  | .idle => m.schedule
  | .run i rest => .drive i rest m.schedule
  | .task i task onFailure => .driveTask i task onFailure m.schedule
  | .aid i task => m.schedule.assistTask i task
  | .beside i w => (Schedule.work i w m.schedule).2

namespace Schedule

variable {S : Setting}

/-- Takes a signal and does what comes of it. -/
def handle (s : Schedule S) (x : Signal S) : Schedule S := (s.take x).carryOut

/-- Times that differ by less are the same to the clock. -/
def resolution : Binary64 := Binary64.ofDecimal false 1 (-9)

/-- Puts what the timers of this time have to say behind what is due already. -/
def ring (s : Schedule S) : Schedule S :=
  let isDue (t : Timer S) : Bool := t.due.lt (s.clock.add resolution)
  { s with
    queue := s.queue ++ (s.timers.takeWhile isDue).map (·.signal)
    timers := s.timers.dropWhile isDue }

/-- Moves the clock to the next timer and makes the timers of that time due; none if there is no timer that
will ever come. -/
def advance? (s : Schedule S) : Option (Schedule S) :=
  match s.timers with
  | [] => none
  | t :: _ => if t.due.isFinite then some { s with clock := s.clock.max t.due }.ring else none

/-- Takes the next signal, or moves the clock if nothing is due; none if nothing will ever be due. -/
def turn? (s : Schedule S) : Option (Schedule S) :=
  match s.queue with
  | x :: rest => some ({ s with queue := rest }.handle x)
  | [] => s.advance?

/-- Whether every run has ended. -/
def isOver (s : Schedule S) : Bool := s.fibers.all Fiber.isOver

/-- Takes the signals that are due now, as many as there are. -/
def settleQueue : (count : Nat) → Schedule S → Schedule S
  | 0, s => s
  | n + 1, s =>
    match s.queue with
    | [] => s
    | x :: rest => settleQueue n ({ s with queue := rest }.handle x)

/-- Goes on until every run has ended or nothing will ever be due, and takes what is due then. -/
def goOn : (turns : Nat) → Schedule S → Schedule S
  | 0, s => s
  | n + 1, s =>
    if s.isOver then settleQueue s.queue.length s
    else match s.turn? with
      | some s => goOn n s
      | none => s

/-- More turns than any schedule is given time for. -/
def turnLimit : Nat := 1000000000000000000

/-- Goes on until every run has ended. -/
def finish (s : Schedule S) : Schedule S := goOn turnLimit s.ring

end Schedule

end Runbook
