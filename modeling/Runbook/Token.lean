import Runbook.Failure
import Runbook.Program

/-!
# Cancellation and deadlines

A run holds a token. It can be cancelled through the token, and the token may have a deadline. Neither stops
the run at once: it looks at the token between its steps and around every call that takes time.

* `Request`: what a run asks, with the calls of its collaborators as a parameter.
* `Run`: a part of a run, which may fail.
* `Token.check`: fails if the token is cancelled or past its deadline.
* `Token.sleep`: waits, unless the token is cancelled or reaches its deadline first.
* `Token.guard`: makes a call that is bounded by the deadline.
-/

namespace Runbook

/-- The state of a token: the reason it was cancelled for, if it was, and its deadline on the clock. -/
structure Token where
  cancelled : Option String := none
  deadline : Option Binary64 := none
  deriving DecidableEq, Repr

/-- A token and the clock, as a run finds them. -/
structure TokenView where
  token : Token
  now : Binary64

namespace TokenView

/-- The seconds left before the deadline, none if there is no deadline. -/
def remaining (v : TokenView) : Option Binary64 :=
  v.token.deadline.map fun d => Binary64.max (Binary64.zero false) (d.sub v.now)

/-- Whether the deadline is reached. -/
def isLate (v : TokenView) : Bool := v.token.deadline.any fun d => d.le v.now

/-- A failure if the token is cancelled or past its deadline; the cancellation comes first. -/
def check (v : TokenView) : Except Failure Unit :=
  match v.token.cancelled with
  | some reason => .error (.cancelled reason)
  | none => if v.isLate then .error .deadlineExceeded else .ok ()

end TokenView

/-- What a run asks of its surroundings. -/
inductive Request (Call : Type) where
  /-- The reading of the clock. -/
  | now
  /-- The run's token and the clock. -/
  | token
  /-- A token for the run with a deadline after so many seconds, unless the run has one. -/
  | openToken (timeout : Option Binary64)
  /-- Waits until the token is cancelled, for so many seconds at most. -/
  | awaitCancel (limit : Binary64)
  /-- A call of a collaborator, for so many seconds at most. -/
  | call (c : Call) (limit : Option Binary64)
  /-- Puts an execution on the list of running ones. -/
  | enlist (execution workflow tenant : String)
  /-- Takes an execution off the list of running ones. -/
  | delist (execution : String)

/-- The answer to a request. A wait tells whether the token was cancelled; a call that takes too long is
answered with `Failure.timedOut`, and one that is interrupted with `Failure.interrupted`. -/
def Request.Reply {Call : Type} (Answer : Call → Type) : Request Call → Type
  | now => Binary64
  | token => TokenView
  | openToken _ => Unit
  | awaitCancel _ => Except Failure Bool
  | call c _ => Except Failure (Answer c)
  | enlist .. => Unit
  | delist _ => Unit

/-- A routine: a program that makes requests. -/
abbrev Routine (Call : Type) (Answer : Call → Type) := Program (Request Call) (Request.Reply Answer)

/-- A part of a routine, which may fail. -/
abbrev Attempt (Call : Type) (Answer : Call → Type) := ExceptT Failure (Routine Call Answer)

namespace Attempt

variable {Call : Type} {Answer : Call → Type}

/-- A single request. -/
def request (r : Request Call) : Routine Call Answer (Request.Reply Answer r) := Program.request r

/-- Asks what cannot fail. -/
def ask (r : Request Call) : Attempt Call Answer (Request.Reply Answer r) := ExceptT.lift (request r)

/-- Makes a call, with a limit in seconds if one is given. -/
def call (c : Call) (limit : Option Binary64) : Attempt Call Answer (Answer c) :=
  ExceptT.mk (request (.call c limit))

/-- Waits for a cancellation, with a limit in seconds. -/
def awaitCancel (limit : Binary64) : Attempt Call Answer Bool := ExceptT.mk (request (.awaitCancel limit))

end Attempt

namespace Token

variable {Call : Type} {Answer : Call → Type}

/-- The token and the clock. -/
def view : Attempt Call Answer TokenView := Attempt.ask .token

/-- Fails if the token is cancelled or past its deadline. -/
def check : Attempt Call Answer Unit := do
  let v ← view
  v.check

/-- Waits for so many seconds, unless the token is cancelled or reaches its deadline first. -/
def sleep (seconds : Binary64) : Attempt Call Answer Unit := do
  let v ← view
  v.check
  let limit := match v.remaining with
    | some left => seconds.min left
    | none => seconds
  let cancelled ← Attempt.awaitCancel limit
  if !cancelled && limit.lt seconds then throw .deadlineExceeded
  check

/-- A time limit that was reached under a deadline is the deadline. -/
def asDeadline : Failure → Failure
  | .timedOut _ => .deadlineExceeded
  | f => f

/-- Makes a call that ends at the deadline at the latest, and looks at the token before and after it. -/
def guard (c : Call) : Attempt Call Answer (Answer c) := do
  let v ← view
  v.check
  let result ← match v.remaining with
    | none => Attempt.call c none
    | some left => ExceptT.adapt asDeadline (Attempt.call c (some left))
  check
  return result

end Token

end Runbook
