import Runbook.Failure
import Runbook.Text.Upper

/-!
# Reading steps

A stored step is a dictionary with an id, a kind and a configuration. It is read into a `Step`; the body of
a loop is read with it, so a workflow with a fault anywhere has none of its steps run.

* `Step.read`: the step of a stored one, or the first fault in the order id, kind, configuration, body,
  successors.
-/

namespace Runbook

/-- A value found under a key is smaller than the dictionary. -/
theorem Entries.sizeOf_lt_of_get? {es : Entries} {key : String} {v : Value} (h : es.get? key = some v) :
    sizeOf v < sizeOf es := by
  induction es with
  | nil => simp [Entries.get?] at h
  | cons e rest ih =>
    obtain ⟨k, w⟩ := e
    simp only [Entries.get?] at h
    split at h
    · cases h
      simp only [List.cons.sizeOf_spec, Prod.mk.sizeOf_spec]
      omega
    · have := ih h
      simp only [List.cons.sizeOf_spec]
      omega

theorem Entries.one_le_sizeOf (es : Entries) : 1 ≤ sizeOf es := by
  cases es
  · simp
  · simp only [List.cons.sizeOf_spec]
    omega

/-- A result, or the first fault as one of a step. -/
def Checked.forStep {α : Type} (step : String) : Checked α → Except Failure α
  | ok x => .ok x
  | failed e _ => .error (.fault (.invalidStep (.field step e)))

/-- A result, or all faults as those of an object. -/
def Checked.forObject {α : Type} (object : String) : Checked α → Except Failure α
  | ok x => .ok x
  | failed e es => .error (.invalidFields object (e :: es))

/-- A user named in a step: a user id, which may be a number, or a dictionary with one and with channels.
Channels that count as nothing stand for the usual ones. -/
def Addressee.read (v : Value) : Checked Addressee :=
  let user : Value → Checked String
    | .int n => Field.nonEmptyText (.str (String.ofList (Digits.ofInt n)))
    | v => Field.nonEmptyText v
  let channels (v : Value) : Checked (List Channel) :=
    if v.isTruthy then Field.sequence (Field.choice Channel.all Channel.name) v
    else .ok Channel.standard
  match v with
  | .str _ | .int _ => Addressee.mk <$> (user v).under "user_id" <*> .ok Channel.standard
  | .dict es =>
    Addressee.mk <$> Field.required es ["user_id", "userId"] user
      <*> Field.optional es ["channels"] Channel.standard channels
  | _ => .fail (.record "RecipientConfig")

/-- Whom an email goes to: a text, or a list of texts. -/
def Addressees.read (v : Value) : Checked Addressees :=
  .orElse (Addressees.line <$> (Field.text v).under "str")
    (Addressees.several <$> (Field.sequence Field.text v).under "list[str]")

/-- The id of a record: a text, or an integer. -/
def RecordId.read (v : Value) : Checked RecordId :=
  .orElse (RecordId.text <$> (Field.text v).under "str") (RecordId.number <$> (Field.integer v).under "int")

namespace Action

/-- A table by its name. -/
def table : Value → Checked Table := Field.choice Table.all Table.name

/-- The parameters that an action cannot do without. -/
def requiredNames : ActionKind → List String
  | .sendEmail => ["to", "subject", "body"]
  | .createRecord => ["table", "data"]
  | .updateRecord => ["table", "id", "data"]
  | .sendNotification => ["recipients", "title", "message"]

/-- What the parameters of an action are for. -/
def purpose : ActionKind → String
  | .sendEmail => "email"
  | .createRecord => "record creation"
  | .updateRecord => "record update"
  | .sendNotification => "notification"

/-- Refuses parameters that are missing or blank. -/
def checkRequired (kind : ActionKind) (parameters : Entries) : Except Failure Unit :=
  if (requiredNames kind).any fun name => (parameters.getD name).isBlank then
    .error (.fault (.missingParameters (purpose kind) (requiredNames kind)))
  else .ok ()

/-- Refuses a table that workflows may not write to. -/
def checkTable (name : Value) : Except Failure Unit :=
  match name with
  | .str s => if (Table.ofName? s).isSome then .ok () else .error (.fault (.unsupportedTable name))
  | _ => .error (.fault (.unsupportedTable name))

/-- The typed parameters of an action. -/
def parametersOf (kind : ActionKind) (es : Entries) : Checked Action :=
  match kind with
  | .sendEmail =>
    sendEmail <$> Field.required es ["to"] Addressees.read
      <*> Field.required es ["subject"] Field.text
      <*> Field.required es ["body"] Field.text
      <*> Field.optional es ["from_address", "from"] none Field.textOrNull
  | .createRecord =>
    createRecord <$> Field.required es ["table"] table
      <*> Field.required es ["data"] (Field.dictionary Field.any)
  | .updateRecord =>
    updateRecord <$> Field.required es ["table"] table
      <*> Field.required es ["record_id", "id"] RecordId.read
      <*> Field.required es ["data"] (Field.dictionary Field.any)
  | .sendNotification =>
    sendNotification <$> Field.required es ["recipients"] (Field.sequence Addressee.read)
      <*> Field.required es ["title"] Field.text
      <*> Field.required es ["message"] Field.text
      <*> Field.optional es ["type"] .info (Field.choice Severity.all Severity.name)
      <*> Field.optional es ["category"] standardCategory Field.text
      <*> Field.optional es ["priority"] .medium (Field.choice Priority.all Priority.name)

/-- The kind of action that a configuration names. -/
def readKind (name : Value) : Except Failure ActionKind :=
  match name with
  | .str s => match ActionKind.ofName? s with
    | some kind => .ok kind
    | none => .error (.fault (.unsupportedAction name))
  | _ => .error (.fault (.unsupportedAction name))

/-- Whether an action writes to a table. -/
def writesTable : ActionKind → Bool
  | .createRecord | .updateRecord => true
  | .sendEmail | .sendNotification => false

/-- The action of a configuration. -/
def read (step : String) (config : Entries) : Except Failure Action := do
  let kind ← readKind (config.getD "action")
  match (config.getD "parameters").orElse (.dict []) with
  | .dict parameters =>
    checkRequired kind parameters
    if writesTable kind then checkTable (Entries.getD parameters "table")
    (parametersOf kind parameters).forStep step
  | _ => .error (.fault (.invalidStep (.parameters step)))

end Action

namespace Task

/-- The comparison of a configuration. -/
def readCondition (step : String) (config : Entries) : Except Failure Task :=
  let name := config.getD "operator"
  let operator? := match name with
    | .str s => Operator.ofName? s
    | _ => none
  match operator? with
  | none => .error (.fault (.unknownOperator name))
  | some operator =>
    Checked.forStep step
      ((fun path value => condition path operator value)
        <$> Field.required config ["path", "condition"] Field.text
        <*> Field.optional config ["value"] .null Field.any)

/-- The list that a loop goes over and the limit on its passes, which is `standardLimit` if the
configuration gives none. -/
def readLoop (standardLimit : Value) (step : String) (config : Entries) : Except Failure (String × Nat) :=
  let limit := match config.get? "max_iterations" with
    | some v => v
    | none => (config.get? "maxIterations").getD standardLimit
  Checked.forStep step
    (Prod.mk <$> Field.required config ["collection"] Field.text
      <*> (Field.natural limit).under "max_iterations")

/-- The delay of a configuration. -/
def readDelay (step : String) (config : Entries) : Except Failure Task :=
  Checked.forStep step
    (delay <$> Field.optional config ["duration"] none fun v => some <$> Field.nonNegative v)

/-- The web call of a configuration. -/
def readWebhook (step : String) (config : Entries) : Except Failure Task :=
  let method (v : Value) := Text.upper <$> Field.text v
  Checked.forStep step
    ((fun url method headers body => webhook ⟨url, method, headers, body⟩)
      <$> Field.required config ["url"] Field.text
      <*> Field.optional config ["method"] "POST" method
      <*> Field.optional config ["headers"] [] (Field.dictionary Field.text)
      <*> Field.optional config ["body"] .null Field.any)

end Task

namespace Step

/-- The kind of step that a stored one names. -/
def readKind (name : Value) : Except Failure StepKind :=
  match name with
  | .str s => match StepKind.ofName? s with
    | some kind => .ok kind
    | none => .error (.fault (.unknownStepKind name))
  | _ => .error (.fault (.unknownStepKind name))

/-- The value under the first name, or under the second one if there is none. -/
def either (es : Entries) (first second : String) : Value := (es.get? first).getD (es.getD second)

/-- The step of its parts and the stored names of its successors. -/
def complete (id : String) (task : Task) (es : Entries) : Except Failure Step :=
  Checked.forObject "Step"
    (mk id task <$> (Field.textOrNull (either es "nextStepId" "next_step_id")).under "next_step_id"
      <*> (Field.textOrNull (either es "conditionStepId" "condition_step_id")).under "condition_step_id")

/-- The value under a key if it counts as something, with the key's value being smaller than the whole. -/
def given? (es : Entries) (key : String) : Option { v : Value // sizeOf v < sizeOf es } :=
  match h : es.get? key with
  | some v => if v.isTruthy then some ⟨v, Entries.sizeOf_lt_of_get? h⟩ else none
  | none => none

mutual

/-- The step of a stored one. -/
def read (standardLimit : Value) (raw : Value) : Except Failure Step :=
  match raw with
  | .dict es =>
    let id := Entries.getD es "id"
    if id.isBlank then .error (.fault (.invalidStep (.noId raw)))
    else do
      let kind ← readKind (either es "type" "kind")
      let task ← match given? es "config" with
        | none => readTask standardLimit id.text kind []
        | some ⟨.dict config, _⟩ => readTask standardLimit id.text kind config
        | some _ => .error (.fault (.invalidStep (.config id.text)))
      complete id.text task es
  | _ => .error (.fault (.invalidStep (.noId raw)))
termination_by (sizeOf raw, 0)
decreasing_by
  all_goals
    have := Entries.one_le_sizeOf es
    simp_all only [Value.dict.sizeOf_spec, List.nil.sizeOf_spec, Prod.lex_def]
    omega
/-- What a step of a kind does by its configuration. -/
def readTask (standardLimit : Value) (id : String) (kind : StepKind) (config : Entries) :
    Except Failure Task :=
  match kind with
  | .condition => Task.readCondition id config
  | .action => .action <$> Action.read id config
  | .delay => Task.readDelay id config
  | .webhook => Task.readWebhook id config
  | .loop =>
    match given? config "steps" with
    | none => do
      let (collection, limit) ← Task.readLoop standardLimit id config
      return .loop collection limit []
    | some ⟨.list body, h⟩ => do
      have : sizeOf body < sizeOf config := by simp only [Value.list.sizeOf_spec] at h; omega
      let (collection, limit) ← Task.readLoop standardLimit id config
      return .loop collection limit (← readAll standardLimit body)
    | some _ => .error (.fault (.invalidStep (.body id)))
termination_by (sizeOf config, 1)

/-- The steps of a stored list, in order; the first fault ends it. -/
def readAll (standardLimit : Value) (raws : List Value) : Except Failure (List Step) :=
  match raws with
  | [] => .ok []
  | raw :: rest => do
    let step ← read standardLimit raw
    let steps ← readAll standardLimit rest
    return step :: steps
termination_by (sizeOf raws, 2)

end

end Step

end Runbook
