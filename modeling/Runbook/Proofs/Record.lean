import Runbook.Proofs.Cancel

/-!
# Failures and their records

A run that fails is to leave a failed record of its execution. It asks for that record where its steps fail; but the call that
records that all steps are completed may fail too, and then the run fails with no failed record.

* `Course.RecordsFailure`: an execution is asked to be closed as failed.
* **`Engine.failure_recorded_iff`**: which failures are recorded, and what becomes of the others.
-/

namespace Runbook

/-- The execution is asked to be closed as failed. -/
def Course.RecordsFailure (t : Course) (execution : String) : Prop :=
  ∃ tenant last a, ⟨.updateExecution tenant execution last, a⟩ ∈ Course.calls t ∧ last.outcome.status = "failed"

namespace Engine

variable {g : Engine} {o : Order} {e : Opened} {vs vs' : Variables} {t : Course} {r : Except Failure Unit}

theorem recordsFailure_iff {stored : StoredWorkflow} {n : Binary64} {start : ExecutionStart} {t' : Course}
    (hbody : (g.body e stored).Leads vs t r vs') :
    Course.RecordsFailure (g.opening o stored n start e.id ++ (t ++ t') ++ [⟨.delist e.id, ()⟩]) e.id ↔
      Course.RecordsFailure t' e.id := by
  refine exists_congr fun tenant => exists_congr fun last => exists_congr fun a => ?_
  exact and_congr_left' (mem_calls_updateExecution hbody)

/-- **Which failures are recorded**, in all surroundings. A run that fails with its execution open has closed it as failed
exactly if its steps failed and its variables have a recorded form at the end. If all steps were completed, what failed is the
one call that was to record that; if the variables have no recorded form, the run fails by that and records no end at all. -/
theorem failure_recorded_iff (g : Engine) (o : Order) (s : Surroundings (Request Call) (Request.Reply Call.Answer))
    {f : Failure} {start : ExecutionStart} {id : String} (hf : ((g.run o).run.under s).2 = .error f)
    (hcreated : ⟨.createExecution start, .ok id⟩ ∈ Course.calls ((g.run o).run.under s).1) :
    let t := ((g.run o).run.under s).1
    ∃ stored n vs inner r final closing, startVariables stored o = .ok vs ∧
      (g.body ⟨id, o.actor, Clock.stamp n⟩ stored).Leads vs inner r final ∧
      t = g.opening o stored n start id ++ (inner ++ closing) ++ [⟨.delist id, ()⟩] ∧
      (Course.RecordsFailure t id ↔ (∃ f', r = .error f') ∧ ∃ w, final.recorded = .ok w) ∧
      (∀ w, r = .ok () → final.recorded = .ok w → ∃ last, last.outcome = .completed ∧
        Course.calls closing = [⟨.updateExecution o.actor.tenant id last, .error f⟩]) ∧
      ∀ f', final.recorded = .error f' → f' = f ∧ Course.calls closing = [] := by
  have hj := journey_of_leads (Program.leads_under s (g.run o).run)
  generalize (g.run o).run.under s = p at hf hcreated hj ⊢
  obtain ⟨t, result⟩ := p
  dsimp only at hf hcreated hj ⊢
  cases hj with
  | unopened hvain => cases hvain _ hcreated
  | @opened stored vs final n start' id' body closing r r' hvs hbody hclosing =>
    obtain ⟨rfl, rfl⟩ := (created_iff (inner_ne_createExecution hbody hclosing)).mp hcreated
    refine ⟨stored, n, vs, body, r, final, closing, hvs, hbody, rfl, (recordsFailure_iff hbody).trans ?_, ?_⟩
    · cases hclosing with
      | unrecorded hfinal =>
        constructor
        · rintro ⟨_, _, _, ⟨⟩, -⟩
        · rintro ⟨-, w, hw⟩
          cases hfinal.symm.trans hw
      | @recorded n' w a hfinal =>
        cases r with
        | ok _ =>
          constructor
          · rintro ⟨tenant, last, a', hmem, hstatus⟩
            cases List.mem_singleton.mp hmem
            have hne : "completed" ≠ "failed" := by decide
            exact absurd hstatus hne
          · rintro ⟨⟨f', ⟨⟩⟩, -⟩
        | error f' => exact ⟨fun _ => ⟨⟨f', rfl⟩, w, hfinal⟩, fun _ => ⟨_, _, a, List.mem_cons_self, rfl⟩⟩
    · cases hclosing with
      | unrecorded hfinal =>
        cases hf
        refine ⟨fun w _ hw => ?_, fun f' hf' => ?_⟩
        · cases hfinal.symm.trans hw
        · exact ⟨(Except.error.inj (hfinal.symm.trans hf')).symm, rfl⟩
      | @recorded n' w a hfinal =>
        refine ⟨?_, fun f' hf' => ?_⟩
        · rintro w' rfl hw'
          cases a with
          | ok _ => cases hf
          | error f' =>
            cases hf
            exact ⟨_, rfl, rfl⟩
        · cases hfinal.symm.trans hf'

end Engine

namespace Checking

/-- Surroundings that oblige, but cannot record the end of an execution. -/
def unclosing : Surroundings (Request Call) (Request.Reply Call.Answer)
  | _, .call (.updateExecution ..) _ => (.error (.reported "OSError" "disk full" none) : Except Failure Unit)
  | past, q => obliging stored "" past q

/-- The run in these surroundings. -/
def unclosed : Course × Except Failure Execution := (({} : Engine).run order).run.under unclosing

/-- The record that opens its execution. -/
def started : ExecutionStart := ⟨"tenant", "workflow", "user", Clock.stamp (Binary64.zero false), .dict [], .dict []⟩

/-- Once its execution is open the run goes on with the steps that are read. -/
theorem unclosed_eq :
    let e : Opened := ⟨"execution", order.actor, started.startedAt⟩
    let opening := ({} : Engine).opening order stored (Binary64.zero false) started e.id
    let left := (order.afterOpening e [] (do
      let result ← Run.observe (({} : Engine).runAll e .top [stepRead "first", stepRead "last"])
      Engine.close e (.ofResult result)
      result)).run.after unclosing opening
    unclosed = (opening ++ left.1, left.2) := by
  intro e opening left
  show unclosed = _
  unfold left
  rw [← body_stored]
  rfl

/-- Whether the run has failed because the disk is full. -/
def isFull : Except Failure Execution → Bool
  | .error (.reported name message none) => name == "OSError" && message == "disk full"
  | _ => false

theorem eq_of_isFull {x : Except Failure Execution} (h : isFull x = true) : x = .error (.reported "OSError" "disk full" none) := by
  unfold isFull at h
  split at h
  · rw [Bool.and_eq_true, beq_iff_eq, beq_iff_eq] at h
    rw [h.1, h.2]
  · cases h

/-- The status that a call closes an execution with. -/
def ending? : Made → Option String
  | ⟨.updateExecution _ _ last, _⟩ => some last.outcome.status
  | _ => none

/-- A run that takes its two steps and cannot record their end fails, and has no failed record. -/
theorem unclosed_unrecorded :
    unclosed.2 = .error (.reported "OSError" "disk full" none) ∧ ¬ Course.RecordsFailure unclosed.1 "execution" ∧
      ∃ last, last.outcome = .completed ∧
        ⟨.updateExecution "tenant" "execution" last, .error (.reported "OSError" "disk full" none)⟩ ∈ Course.calls unclosed.1 := by
  have hf : unclosed.2 = .error (.reported "OSError" "disk full" none) := by
    refine eq_of_isFull ?_
    rw [unclosed_eq]
    decide +kernel
  have hcreated : ⟨.createExecution started, .ok "execution"⟩ ∈ Course.calls unclosed.1 := by
    rw [unclosed_eq]
    exact List.mem_cons_of_mem _ List.mem_cons_self
  have hunrecorded : ¬ Course.RecordsFailure unclosed.1 "execution" := by
    rintro ⟨tenant, last, a, hmem, hstatus⟩
    have hend : (Course.calls unclosed.1).filterMap ending? = ["completed"] := by
      rw [unclosed_eq]
      decide +kernel
    have hfailed : "failed" ∈ (Course.calls unclosed.1).filterMap ending? :=
      List.mem_filterMap.mpr ⟨_, hmem, congrArg some hstatus⟩
    rw [hend] at hfailed
    exact absurd hfailed (by decide)
  refine ⟨hf, hunrecorded, ?_⟩
  obtain ⟨stored, n, vs, inner, r, final, closing, -, -, ht, hiff, hcompleted, hformless⟩ :=
    Engine.failure_recorded_iff {} order unclosing hf hcreated
  cases hfinal : final.recorded with
  | error f' =>
    obtain ⟨rfl, -⟩ := hformless f' hfinal
    obtain ⟨_, ⟨⟩⟩ := mapError_eq_error hfinal
  | ok w =>
    cases r with
    | error f' => exact absurd (hiff.mpr ⟨⟨f', rfl⟩, w, hfinal⟩) hunrecorded
    | ok _ =>
      obtain ⟨last, hlast, hclosing⟩ := hcompleted w rfl hfinal
      refine ⟨last, hlast, ?_⟩
      show _ ∈ Course.calls ((({} : Engine).run order).run.under unclosing).1
      rw [ht, Course.calls_append, Course.calls_append, Course.calls_append, hclosing]
      exact List.mem_append_left _ (List.mem_append_right _ (List.mem_append_right _ List.mem_cons_self))

end Checking

end Runbook
