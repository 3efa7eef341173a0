import Runbook.Failure

/-!
# Registries

* `Registry`: the kinds of steps that an engine runs, and the actions it can perform. What is missing fails
  when it is asked for.
-/

namespace Runbook

/-- The kinds of steps that have a handler, in order, and the surroundings that actions need: a mail
transport, tables with a store, a sender of notifications. -/
structure Registry where
  kinds : List StepKind := StepKind.all
  email : Bool := true
  tables : Option (List Table) := some Table.all
  notifications : Bool := true

namespace Registry

/-- The actions that can be performed. -/
def actions (r : Registry) : List ActionKind :=
  (if r.email then [.sendEmail] else []) ++
  (if r.tables.isSome then [.createRecord, .updateRecord] else []) ++
  (if r.notifications then [.sendNotification] else [])

/-- Whether a kind of step has a handler; a failure if not. -/
def checkKind (r : Registry) (kind : StepKind) : Except Failure Unit :=
  if kind ∈ r.kinds then .ok () else .error (.fault (.unknownStepKind (.str kind.name)))

/-- Whether an action can be performed; a failure if not. -/
def checkAction (r : Registry) (kind : ActionKind) : Except Failure Unit :=
  if kind ∈ r.actions then .ok () else .error (.fault (.unsupportedAction (.str kind.name)))

/-- Whether a table has a store; a failure if not. -/
def checkTable (r : Registry) (table : Table) : Except Failure Unit :=
  if (r.tables.getD []).contains table then .ok ()
  else .error (.fault (.unsupportedTable (.str table.name)))

/-- A registry of these kinds of steps; a kind that comes twice keeps its first place. -/
def withKinds (r : Registry) (kinds : List StepKind) : Registry := { r with kinds := kinds.eraseDups }

/-- Refuses a value that cannot be looked up. -/
def checkKey (name : Value) : Except Failure Unit :=
  match name.unkeyable? with
  | some kind => .error (.misuse (.notAKey kind))
  | none => .ok ()

/-- The kind of step that a value names, if it has a handler. -/
def kindNamed (r : Registry) (name : Value) : Except Failure (Option StepKind) := do
  checkKey name
  match name with
  | .str s => return (StepKind.ofName? s).filter r.kinds.contains
  | _ => return none

/-- The kind of step that a value names; a failure if there is no handler for it. -/
def resolveKind (r : Registry) (name : Value) : Except Failure StepKind := do
  match ← r.kindNamed name with
  | some kind => return kind
  | none => .error (.fault (.unknownStepKind name))

/-- The action that a value names; a failure if it cannot be performed. -/
def resolveAction (r : Registry) (name : Value) : Except Failure ActionKind := do
  checkKey name
  let kind? := match name with
    | .str s => (ActionKind.ofName? s).filter r.actions.contains
    | _ => none
  match kind? with
  | some kind => return kind
  | none => .error (.fault (.unsupportedAction name))

end Registry

end Runbook
