import Runbook.Proofs.Footprint
import Runbook.Proofs.Replay
import Runbook.Worker.Task

/-!
# What a task answers

A task runs a workflow and answers for it; what is recorded about the run is written by the run itself. Where the end of the
execution was written and the task answers, the two agree, but for a failure without a message: its name is recorded, and the
answer says nothing. An order to stop is recorded as a failure too, and the task does not answer at all.

* `Row.IsClosedBy`: the row of an execution that was closed with a record.
* `TaskAnswer.Agrees`: a row says what the task answers.
* **`Engine.task_answers_as_recorded`**: when an answer agrees with the row of its execution.
-/

namespace Runbook

/-! ## Rows of executions that were closed -/

/-- The row of an execution that was closed with a record. -/
structure Row.IsClosedBy (row : Row) (last : ExecutionEnd) : Prop where
  status : row.value "status" = .str last.outcome.status
  message : ∀ message, last.outcome = .failed message → row.value "error_message" = .str message
  final : row.value "final_variables" = last.finalVariables.stored

theorem ExecutionEnd.isClosedBy (last : ExecutionEnd) {row : Row} {id : String} (h : row.IsWhole)
    (hrow : row.isNamed .executions id) : (row.changed .executions id last.fields).IsClosedBy last := by
  obtain ⟨outcome, completedAt, milliseconds, final⟩ := last
  have hset : ∀ {name : String} {v : Value}, (Relation.executions.column? name).isSome →
      Fields.get? (ExecutionEnd.fields ⟨outcome, completedAt, milliseconds, final⟩) name = some v →
        (row.changed .executions id (ExecutionEnd.fields ⟨outcome, completedAt, milliseconds, final⟩)).value name = v.stored :=
    fun hcolumn hv => Row.value_changed_of_some h hrow hcolumn hv
  refine ⟨hset (v := .str outcome.status) (by decide) ?_, fun message hfailed => ?_, hset (by decide) ?_⟩
  · cases outcome <;> rfl
  · obtain rfl : outcome = .failed message := hfailed
    exact hset (v := .str message) (by decide) rfl
  · cases outcome <;> rfl

/-! ## Answers -/

/-- A row says what a task answers about the execution of an id. -/
def TaskAnswer.Agrees (id : String) (row : Row) : TaskAnswer → Prop
  | completed run =>
    run.execution = id ∧ row.value "status" = .str "completed" ∧ row.value "final_variables" = run.finalVariables.stored
  | failed message => row.value "status" = .str "failed" ∧ row.value "error_message" = .str message

theorem TaskAnswer.ofRun_ok {e : Execution} {v : Value} (h : e.final.recorded = .ok v) :
    TaskAnswer.ofRun (.ok e) = .ok (.completed ⟨e.id, v⟩) := by
  unfold TaskAnswer.ofRun Completed.ofRun
  rw [ok_bind, h]
  rfl

/-- The task does not answer for a run that was stopped, and for any other that failed it answers with the message. -/
theorem TaskAnswer.ofRun_error (f : Failure) :
    TaskAnswer.ofRun (.error f) = if f.isStop then .error f else .ok (.failed f.message) := rfl

/-- What is recorded about a failure is its message, unless it has none, but a name. -/
theorem Failure.summary_eq_message {f : Failure} : f.summary = f.message ↔ f.message ≠ "" ∨ f.name = "" := by
  unfold summary
  split
  · next hempty =>
    have hnone : f.message = "" := String.isEmpty_iff.mp hempty
    rw [hnone]
    exact ⟨.inr, fun h => h.resolve_left fun hne => hne rfl⟩
  · next hmessage => exact iff_of_true rfl (.inl fun hnone => hmessage (String.isEmpty_iff.mpr hnone))

namespace Engine

variable {w : Wiring} {g : Engine} {o : Order} {s : Schedule w.setting} {token : Option Nat} {m : Moment w.setting}
  {ids : Value → Bool} {e : Opened} {final : Variables} {row : Row}

/-- The row of an execution that was closed with the result of its steps, and what the task answers about it. -/
theorem answer_of_isClosedBy {r : Except Failure Unit} {n : Binary64} {v : Value} {user : String} {input : Entries}
    (hrow : row.IsClosedBy (e.endOf r n v)) (hfinal : final.recorded = .ok v) {result : Except Failure Execution}
    (hresult : result = r.map fun _ => ⟨e.id, user, input, final⟩) :
    (row.value "status" = .str "completed" ↔ ∃ run, TaskAnswer.ofRun result = .ok (.completed run)) ∧
      (∀ f, result = .error f → row.value "status" = .str "failed" ∧ row.value "error_message" = .str f.summary) ∧
      ∀ answer, TaskAnswer.ofRun result = .ok answer →
        (answer.Agrees e.id row ↔ ∀ f, result = .error f → f.message ≠ "" ∨ f.name = "") := by
  cases r with
  | ok _ =>
    obtain rfl : result = .ok ⟨e.id, user, input, final⟩ := hresult
    have hanswer : TaskAnswer.ofRun (.ok ⟨e.id, user, input, final⟩) = .ok (.completed ⟨e.id, v⟩) := TaskAnswer.ofRun_ok hfinal
    rw [hanswer]
    refine ⟨iff_of_true hrow.status ⟨_, rfl⟩, nofun, ?_⟩
    rintro _ ⟨⟩
    exact iff_of_true ⟨rfl, hrow.status, hrow.final⟩ nofun
  | error f =>
    obtain rfl : result = .error f := hresult
    have hfailed : row.value "status" = .str "failed" := hrow.status
    have hsummary : row.value "error_message" = .str f.summary := hrow.message _ rfl
    have hne : "failed" ≠ "completed" := by decide
    rw [TaskAnswer.ofRun_error]
    refine ⟨iff_of_false (fun h => hne (Value.str.inj (hfailed.symm.trans h))) ?_, ?_, fun answer hanswer => ?_⟩
    · rintro ⟨run, h⟩
      split at h <;> cases h
    · rintro _ ⟨⟩
      exact ⟨hfailed, hsummary⟩
    · obtain rfl : .failed f.message = answer := by
        split at hanswer <;> cases hanswer
        rfl
      have hagrees : (TaskAnswer.failed f.message).Agrees e.id row ↔ f.summary = f.message := by
        exact ⟨fun h => Value.str.inj (hsummary.symm.trans h.2), fun h => ⟨hfailed, hsummary.trans (congrArg _ h)⟩⟩
      refine (hagrees.trans Failure.summary_eq_message).trans ⟨?_, fun h => h f rfl⟩
      rintro h _ ⟨⟩
      exact h

/-- The task answers for a run that succeeds, and the end of its execution was written. -/
theorem completed_of_journey {t : Course} {result : Except Failure Execution} (h : Journey g o t result) {e : Execution}
    (he : result = .ok e) : ∃ v last, TaskAnswer.ofRun result = .ok (.completed ⟨e.id, v⟩) ∧
      ⟨.updateExecution o.actor.tenant e.id last, .ok ()⟩ ∈ t.calls := by
  cases h with
  | unopened => cases he
  | @opened stored vs final n start id inner closing r r' hvs hbody hclosing =>
    cases hclosing with
    | unrecorded => cases he
    | @recorded n' v a hfinal =>
      cases a with
      | error f => cases he
      | ok _ =>
        cases r with
        | error f => cases he
        | ok _ =>
          cases he
          exact ⟨v, _, TaskAnswer.ofRun_ok hfinal, (mem_calls_updateExecution hbody).mpr List.mem_cons_self⟩

/-- The task does not answer for a run that was stopped, and for no other. -/
theorem ofRun_eq_error {t : Course} {result : Except Failure Execution} (h : Journey g o t result) {f : Failure} :
    TaskAnswer.ofRun result = .error f ↔ result = .error f ∧ f.isStop := by
  cases result with
  | ok e =>
    obtain ⟨v, -, hanswer, -⟩ := completed_of_journey h rfl
    rw [hanswer]
    exact iff_of_false nofun fun h => nomatch h.1
  | error f' =>
    rw [TaskAnswer.ofRun_error]
    split
    · next hstop =>
      refine ⟨fun h => ?_, fun h => congrArg Except.error (Except.error.inj h.1)⟩
      cases h
      exact ⟨rfl, hstop⟩
    · next hgoes => exact iff_of_false nofun fun h => hgoes (Except.error.inj h.1 ▸ h.2)

/-- When a run has come to a result, the rows under its ids are those from before and what the entries of its course leave
behind. -/
theorem replays_of_result (hw : w.stores = .onDatabase) (h : (launched g o s token).GoesApart s.fibers.length ids m)
    {result : Except Failure Execution} (hresult : m.schedule.result? s.fibers.length = some (.ok result)) :
    ∃ (t : Course) (rows : List Row), (g.run o).run.Leads t result ∧ Ledger (s.world.database.records ids) t.entries rows ∧
      m.schedule.world.database.records ids = s.world.database.records ids ++ rows := by
  obtain ⟨φ, t, rows, hin, haccounts, hledger, hrows⟩ := replays_of_goesApart hw h
  obtain rfl := hin.eq_ended hresult
  obtain ⟨hleft, -⟩ | _ := haccounts
  exact ⟨t, rows, hleft.leads, hledger, hrows⟩

/-- **What a task answers and what is recorded**, on the database, as long as nobody else touches the records under some ids and
the run adds records under these ids only. For a run that succeeds the task answers that it is completed, with the recorded form
of its variables, and the end of its execution was written. The task answers for every run but one that failed with an order to
stop, which goes on through the task. Wherever the end of an execution was written, the row of the execution is completed exactly
if the task answers so. The row of a failed run is failed, with the message of the failure or, if there is none, its name. If the
task answers, it answers with the message alone, so the answer agrees with the row exactly if the failure of the run, if it
failed, has a message. -/
theorem task_answers_as_recorded (w : Wiring) (hw : w.stores = .onDatabase) (g : Engine) (o : Order) (s : Schedule w.setting)
    (token : Option Nat) :
    let i := s.fibers.length
    let begun := launched g o s token
    ∀ ids m result, begun.GoesApart i ids m → m.schedule.result? i = some (.ok result) →
      ∃ (t : Course) (rows : List Row), (g.run o).run.Leads t result ∧ Ledger (s.world.database.records ids) t.entries rows ∧
        m.schedule.world.database.records ids = s.world.database.records ids ++ rows ∧
        (∀ e, result = .ok e → ∃ v last, TaskAnswer.ofRun result = .ok (.completed ⟨e.id, v⟩) ∧
          ⟨.updateExecution o.actor.tenant e.id last, .ok ()⟩ ∈ t.calls) ∧
        (∀ f, TaskAnswer.ofRun result = .error f ↔ result = .error f ∧ f.isStop) ∧
        ∀ tenant id last, ⟨.updateExecution tenant id last, .ok ()⟩ ∈ t.calls →
          ∃ row, m.schedule.world.database.execution? tenant id = some row ∧
            (row.value "status" = .str "completed" ↔ ∃ run, TaskAnswer.ofRun result = .ok (.completed run)) ∧
            (∀ f, result = .error f → row.value "status" = .str "failed" ∧ row.value "error_message" = .str f.summary) ∧
            ∀ answer, TaskAnswer.ofRun result = .ok answer →
              (answer.Agrees id row ↔ ∀ f, result = .error f → f.message ≠ "" ∨ f.name = "") := by
  intro i begun ids m result h hresult
  obtain ⟨t, rows, hleads, hledger, hrows⟩ := replays_of_result hw h hresult
  have hjourney := journey_of_leads hleads
  refine ⟨t, rows, hleads, hledger, hrows, fun e he => completed_of_journey hjourney he, fun f => ofRun_eq_error hjourney,
    fun tenant id last hlast => ?_⟩
  cases hjourney with
  | unopened hvain => exact absurd (hvain _ hlast) nofun
  | @opened stored vs final n start id' inner closing r r' hvs hbody hclosing =>
    rw [entries_opened] at hledger
    cases hclosing with
    | unrecorded => cases (mem_calls_updateExecution hbody).mp hlast
    | @recorded n' v a hfinal =>
      cases List.mem_singleton.mp ((mem_calls_updateExecution hbody).mp hlast)
      let e : Opened := ⟨id', o.actor, Clock.stamp n⟩
      have hlast : Ledger (s.world.database.records ids) ((Entry.opens .executions id' start.fields :: inner.entries) ++
          [Entry.changes .executions o.actor.tenant id' (e.endOf r n' v).fields]) rows := hledger
      obtain ⟨row, hwhole, hnamed, hof, hone⟩ := hlast.finds_changed (e.endOf r n' v).names.1 (e.endOf r n' v).names.2
      refine ⟨_, Database.execution?_of_records (hrows ▸ hone) hof, ?_⟩
      exact answer_of_isClosedBy ((e.endOf r n' v).isClosedBy hwhole hnamed) hfinal rfl

end Engine

namespace Supplying

/-- The task answers that the run is completed, and so does the row of its execution. -/
theorem supplied_is_answered :
    ∃ result run row, supplied.result? 0 = some (.ok result) ∧ TaskAnswer.ofRun result = .ok (.completed run) ∧
      supplied.world.database.execution? "tenant" run.execution = some row ∧ row.value "status" = .str "completed" ∧
      row.value "final_variables" = run.finalVariables.stored := by
  obtain ⟨e, hended⟩ := exists_supplied
  obtain ⟨t, rows, -, -, -, hcompleted, -, hclosed⟩ := Engine.task_answers_as_recorded wiring rfl {} order { world := { database } }
    none _ _ (.ok e) goesApart_supplied hended
  obtain ⟨v, last, hanswer, hlast⟩ := hcompleted e rfl
  obtain ⟨row, hrow, -, -, hagrees⟩ := hclosed _ _ _ hlast
  obtain ⟨-, hstatus, hfinal⟩ := (hagrees _ hanswer).mpr nofun
  exact ⟨.ok e, _, row, hended, hanswer, hrow, hstatus, hfinal⟩

end Supplying

end Runbook
