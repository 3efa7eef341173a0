import Runbook.Field
import Runbook.Json.Form
import Runbook.Json.Reader
import Runbook.Net.Url
import Runbook.Step
import Runbook.Time.IsoReader
import Runbook.Value.Members
import Runbook.Value.Path
import Runbook.Value.Snapshot

/-!
# Failures

Why a workflow could not be loaded or run.

* `Flaw`: why a stored step is no step.
* `Fault`: the causes that the engine itself reports.
* `Misuse`: a value that cannot be used where it was given.
* `Failure`: any cause, with those that the engine's surroundings report.
* `Failure.summary`: the text that is recorded for a failed step or run.
* `Failure.isStop`: whether it is an order to stop rather than an error.
-/

namespace Runbook

/-- Why a stored step is no step. -/
inductive Flaw where
  | noId (raw : Value)
  | config (step : String)
  | parameters (step : String)
  | body (step : String)
  | field (step : String) (error : FieldError)

/-- The message about a stored step that is none. -/
def Flaw.message : Flaw → String
  | noId raw => "Step definition without an id: " ++ raw.literal
  | config step => "Step " ++ step ++ ": config must be an object"
  | parameters step => "Step " ++ step ++ ": parameters must be an object"
  | body step => "Step " ++ step ++ ": loop steps must be a list"
  | field step error =>
    let location := if error.location.isEmpty then "config" else error.location
    "Step " ++ step ++ ": invalid " ++ location ++ ": " ++ error.problem.message

/-- A cause that the engine itself reports. -/
inductive Fault where
  | workflowNotFound (workflow : String)
  | invalidStep (flaw : Flaw)
  | unknownStepKind (name : Value)
  | unknownOperator (name : Value)
  | unsupportedAction (name : Value)
  | missingParameters (purpose : String) (names : List String)
  | unsupportedTable (name : Value)
  | notAnArray (collection : String)
  | unsafeUrl (cause : UnsafeUrl)
  | webhookFailed (status : Int) (reason : String)
  | cancelled (reason : String)
  | deadlineExceeded

namespace Fault

/-- The name that a fault is known by. -/
def name : Fault → String
  | workflowNotFound _ => "WorkflowNotFoundError"
  | invalidStep _ => "InvalidWorkflowDefinitionError"
  | unknownStepKind _ => "UnknownStepTypeError"
  | unknownOperator _ => "UnknownOperatorError"
  | unsupportedAction _ => "UnsupportedActionError"
  | missingParameters .. => "MissingParametersError"
  | unsupportedTable _ => "UnsupportedEntityError"
  | notAnArray _ => "NotAnArrayError"
  | unsafeUrl _ => "UnsafeWebhookUrlError"
  | webhookFailed .. => "WebhookFailedError"
  | cancelled _ => "ExecutionCancelledError"
  | deadlineExceeded => "ExecutionTimeoutError"

/-- The message about a fault. -/
def message : Fault → String
  | workflowNotFound workflow => "Workflow " ++ workflow ++ " not found"
  | invalidStep flaw => flaw.message
  | unknownStepKind name => "Unknown step type: " ++ name.text
  | unknownOperator name => "Unknown operator: " ++ name.text
  | unsupportedAction name => "Unknown action: " ++ name.text
  | missingParameters purpose names =>
    "Missing required " ++ purpose ++ " parameters: " ++ ", ".intercalate names
  | unsupportedTable name => "Unsupported table: " ++ name.text
  | notAnArray collection => "Collection " ++ collection ++ " is not an array"
  | unsafeUrl cause => cause.message
  | webhookFailed status reason =>
    "Webhook failed: " ++ String.ofList (Digits.ofInt status) ++ " " ++ reason
  | cancelled reason => reason
  | deadlineExceeded => "Execution deadline exceeded"

/-- The status code that a fault is answered with over HTTP. -/
def status : Fault → Nat
  | workflowNotFound _ => 404
  | webhookFailed .. => 502
  | cancelled _ => 409
  | deadlineExceeded => 504
  | _ => 422

end Fault

/-- A value that cannot be used where it was given. -/
inductive Misuse where
  | index (cause : IndexTooLong)
  | notComparable (cause : NotComparable)
  | notRecordable (cause : NotRecordable)
  | notAKey (kind : Value.Kind)
  | notJson (cause : NotJson)
  | json (cause : JsonError)
  | dateTime (cause : DateTimeError)
  | url (cause : UrlError)
  | notAnInteger (number : Binary64)
  | wrongShape (cause : WrongShape)

/-- The message about a text that is no date-time. -/
def DateTimeError.message : DateTimeError → String
  | malformed text => "Invalid isoformat string: " ++ Text.quote text
  | year value => "year " ++ String.ofList (Digits.ofNat value) ++ " is out of range"
  | month => "month must be in 1..12"
  | day => "day is out of range for month"
  | hour => "hour must be in 0..23"
  | minute => "minute must be in 0..59"
  | second => "second must be in 0..59"
  | offset us =>
    "offset must be a timedelta strictly between -timedelta(hours=24) and timedelta(hours=24), not " ++
      durationLiteral us ++ "."

/-- The message about a text that is not split as a web address. -/
def UrlError.message : UrlError → String
  | brackets => "Invalid IPv6 URL"
  | futureAddress => "IPvFuture address is invalid"
  | notAddress host => Text.quote host ++ " does not appear to be an IPv4 or IPv6 address"
  | bracketedV4 => "An IPv4 address cannot be in brackets"
  | lookalike authority =>
    "netloc '" ++ authority ++ "' contains invalid characters under NFKC normalization"

namespace Misuse

/-- The message about a misuse. -/
def message : Misuse → String
  | index cause =>
    "Exceeds the limit (4300 digits) for integer string conversion: value has " ++
      String.ofList (Digits.ofNat cause.digits) ++
      " digits; use sys.set_int_max_str_digits() to increase the limit"
  | notComparable .notANumber => "[<class 'decimal.InvalidOperation'>]"
  | notRecordable .signalingNaN => "cannot convert signaling NaN to float"
  | notAKey kind => "unhashable type: '" ++ kind.name ++ "'"
  | notJson cause => cause.message
  | json cause => cause.message
  | dateTime cause => cause.message
  | url cause => cause.message
  | notAnInteger number =>
    if number.isNaN then "cannot convert float NaN to integer" else "cannot convert float infinity to integer"
  | wrongShape cause => cause.message

end Misuse

/-- Why something failed. -/
inductive Failure where
  | fault (cause : Fault)
  | misuse (cause : Misuse)
  /-- The fields of a typed object were read with these faults. -/
  | invalidFields (object : String) (errors : List FieldError)
  /-- The database refused a statement. -/
  | database (name message : String)
  /-- Something outside the engine failed and told why. -/
  | reported (name message : String) (status : Option Nat)
  /-- A time limit was reached. -/
  | timedOut (message : String)
  /-- The run was interrupted from outside while it waited. -/
  | interrupted (message : String)

namespace Failure

/-- All faults of the fields of an object, two lines each. -/
def fieldReport (object : String) (errors : List FieldError) : String :=
  let count := String.ofList (Digits.ofNat errors.length) ++
    (if errors.length = 1 then " validation error for " else " validation errors for ") ++ object
  "\n".intercalate (count :: errors.flatMap fun e => [e.location, "  " ++ e.problem.message])

/-- The message about a failure, empty if its reporter gave none. -/
def message : Failure → String
  | fault cause => cause.message
  | misuse cause => cause.message
  | invalidFields object errors => fieldReport object errors
  | database _ message => message
  | reported _ message _ => message
  | timedOut message => message
  | interrupted message => message

/-- The status code that the failure is answered with over HTTP, if it has one. -/
def status? : Failure → Option Nat
  | fault cause => some cause.status
  | reported _ _ status => status
  | _ => none

/-- The name that stands in for the message of a failure that may come without one. -/
def name : Failure → String
  | fault cause => cause.name
  | database name _ => name
  | reported name _ _ => name
  | timedOut _ => "TimeoutError"
  | interrupted _ => "CancelledError"
  | misuse _ | invalidFields .. => ""

/-- The names of failures that are orders to stop rather than errors. -/
def stopNames : List String :=
  ["BaseException", "BaseExceptionGroup", "CancelledError", "GeneratorExit", "KeyboardInterrupt", "SystemExit"]

/-- Whether the failure is an order to stop rather than an error. The engine records it like any other one, but
who answers for errors lets it pass. -/
def isStop : Failure → Bool
  | reported name _ _ => stopNames.contains name
  | interrupted _ => true
  | _ => false

/-- The text that is recorded for the failure: its message, or its name if there is none. -/
def summary (f : Failure) : String := if f.message.isEmpty then f.name else f.message

/-- The failure of a run that was cancelled. -/
def cancelled (reason : String) : Failure := fault (.cancelled reason)

/-- The failure of a run that reached its deadline. -/
def deadlineExceeded : Failure := fault .deadlineExceeded

end Failure

namespace Value

/-- The value at a path that is itself a value; only a text leads anywhere. -/
def lookup (v path : Value) : Except Failure Value :=
  match path with
  | str p => (v.resolve p).mapError fun e => .misuse (.index e)
  | _ => .ok null

/-- The recorded form of a value. -/
def recorded (v : Value) : Except Failure Value := v.snapshot.mapError fun e => .misuse (.notRecordable e)

end Value

/-- The outcome of the comparison that a value names. -/
def evaluate (operator actual expected : Value) : Except Failure Bool :=
  match operator.unkeyable? with
  | some kind => .error (.misuse (.notAKey kind))
  | none =>
    match operator with
    | .str name => match Operator.ofName? name with
      | some op => (op.evaluate actual expected).mapError fun e => .misuse (.notComparable e)
      | none => .error (.fault (.unknownOperator operator))
    | _ => .error (.fault (.unknownOperator operator))

end Runbook
