import Runbook.Proofs.Bracket

/-!
# How a failure unwinds

A failure comes up inside the innermost open step run, or outside of all of them. From then on nothing is done but to close the
open step runs, innermost first, each as failed with the same message, and then the execution. The run fails by that very
failure, as long as its variables have a recorded form to close the execution with.

* `Unwinding`: the closing of open step runs for a failure; `Raised`: where a failure comes up.
* **`Walk.unwinds`**: a walk that fails unwinds, if all its records are made.
* **`Engine.failing_run_unwinds`**: what a failing run does, with and without a recorded form of its variables.
-/

namespace Runbook

/-- All calls of a course that record something are answered. -/
def Course.IsRecorded (t : Course) : Prop := ∀ m ∈ t.calls, m.call.isAudit → ∃ a, m.outcome = .ok a

theorem Course.isRecorded_append {t t' : Course} : Course.IsRecorded (t ++ t') ↔ t.IsRecorded ∧ t'.IsRecorded := by
  rw [Course.IsRecorded, Course.calls_append, List.forall_mem_append]
  rfl

/-- If the call closes a step run, it closes it as completed. -/
def Made.ClosesCompleted (m : Made) : Prop :=
  ∀ tenant id last, m.call = .updateStepRun tenant id last → last.outcome = .completed

theorem Made.closesCompleted_of_isStepRun {m : Made} (h : m.call.isStepRun = false) : m.ClosesCompleted := by
  intro tenant id last hm
  rw [hm] at h
  cases h

namespace Engine

variable {g : Engine} {e : Opened} {part : Part} {vs vs' : Variables} {t t' : Course} {f : Failure}

/-- The open step runs are closed for a failure, those inside others first. -/
inductive Unwinding (e : Opened) (f : Failure) : List OpenRun → Course → Prop where
  | done : Unwinding e f [] []
  | close {opened : List OpenRun} {run : OpenRun} {n : Binary64} {last : StepRunEnd} {t : Course} :
    Unwinding e f opened t → last.outcome = .failed f.summary →
      Unwinding e f (opened ++ [run])
        (t ++ [⟨.now, n⟩, ⟨.call (.updateStepRun e.actor.tenant run.id last) none, (.ok () : Except Failure Unit)⟩])

/-- The handler of this step run fails when all that was opened inside it is closed again. -/
def RaisedIn (g : Engine) (e : Opened) (f : Failure) (run : OpenRun) (before : Course) : Prop :=
  ∃ pre task n inner vs vs', before =
      pre ++ ⟨.call (.createStepRun (e.startOf run.path task.kind n)) none, (.ok run.id : Except Failure String)⟩ :: inner ∧
    (g.handle e run.path task).Leads vs inner (.error f) vs' ∧ openRuns (Course.calls inner) = some []

/-- The token is looked at before the next step, and says no. -/
def RaisedByToken (f : Failure) (before : Course) : Prop :=
  ∃ pre v, before = pre ++ [⟨.token, v⟩] ∧ TokenView.check v = .error f

/-- Where a failure comes up in a part of a walk: in the innermost open step run, or in the part itself. -/
def Part.Raises (g : Engine) (e : Opened) (f : Failure) (part : Part) (opened : List OpenRun) (before : Course) : Prop :=
  match opened, part with
  | run :: _, _ => RaisedIn g e f run before
  | [], .steps .. | [], .passes .. => RaisedByToken f before
  | [], .step .. => False
  | [], .handler .. => True

/-- A course in which a failure comes up when these step runs are open, and unwinds. Until it comes up each closing of a step
run is a completion. -/
structure Unwinds (g : Engine) (e : Opened) (f : Failure) (part : Part) (opened : List OpenRun) (t before after : Course) :
    Prop where
  split : t = before ++ after
  completed : ∀ m ∈ before.calls, m.ClosesCompleted
  reaches (around : List OpenRun) : before.calls.foldlM Made.follow around = some (opened ++ around)
  raised : part.Raises g e f opened before
  unwinding : Unwinding e f opened after

/-- In a walk that succeeds each closing of a step run is a completion. -/
theorem Walk.completed {r : Except Failure Unit} (h : Walk g e part vs t r vs') (hr : r = .ok ()) :
    ∀ m ∈ t.calls, m.ClosesCompleted := by
  induction h with
  | finished => exact List.forall_mem_nil _
  | stopped => cases hr
  | fails => cases hr
  | goesOn _ _ _ ih ih' =>
    rw [Course.calls_append]
    exact List.forall_mem_append.mpr ⟨ih rfl, ih' hr⟩
  | refused => cases hr
  | @recorded path task vs vs' n n' id t r a _ _ ih =>
    cases a with
    | error f' => cases hr
    | ok _ =>
      obtain rfl : r = .ok () := hr
      rw [Course.calls_append]
      refine List.forall_mem_append.mpr ⟨List.forall_mem_cons.mpr ⟨nofun, ih rfl⟩, List.forall_mem_singleton.mpr ?_⟩
      rintro tenant id last ⟨⟩
      rfl
  | unknown => cases hr
  | plain hp h =>
    exact fun m hm => Made.closesCompleted_of_isStepRun (Call.isStepRun_of_isErrand (calls_of_plain hp h m hm))
  | unlisted => cases hr
  | looped _ _ ih => exact ih hr
  | ended => exact List.forall_mem_nil _
  | broken => cases hr
  | again _ _ ih ih' =>
    rw [Course.calls_append]
    exact List.forall_mem_append.mpr ⟨ih rfl, ih' hr⟩

theorem Unwinding.eq_nil (h : Unwinding e f [] t) : t = [] := by
  generalize hopened : ([] : List OpenRun) = opened at h
  cases h with
  | done => rfl
  | close => exact absurd hopened.symm (List.concat_ne_nil _ _)

theorem RaisedIn.prepend {run : OpenRun} {before : Course} (pre : Course) (h : RaisedIn g e f run before) :
    RaisedIn g e f run (pre ++ before) := by
  obtain ⟨pre', task, n, inner, vs, vs', rfl, hleads, hclosed⟩ := h
  exact ⟨pre ++ pre', task, n, inner, vs, vs', by rw [List.append_assoc], hleads, hclosed⟩

theorem RaisedByToken.prepend {before : Course} (pre : Course) (h : RaisedByToken f before) :
    RaisedByToken f (pre ++ before) := by
  obtain ⟨pre', v, rfl, hv⟩ := h
  exact ⟨pre ++ pre', v, by rw [List.append_assoc], hv⟩

theorem Part.Raises.prepend {opened : List OpenRun} {before : Course} (pre : Course)
    (h : part.Raises g e f opened before) : part.Raises g e f opened (pre ++ before) := by
  cases opened with
  | cons run opened => exact RaisedIn.prepend pre h
  | nil =>
    cases part with
    | steps => exact RaisedByToken.prepend pre h
    | passes => exact RaisedByToken.prepend pre h
    | step => exact h
    | handler => exact h

/-- What closes all it opens, as completed, may come before. -/
theorem Unwinds.prepend {opened : List OpenRun} {before after pre : Course} {N : List OpenRun → Prop}
    (hpre : Brackets N pre.calls) (hcompleted : ∀ m ∈ pre.calls, m.ClosesCompleted)
    (hu : Unwinds g e f part opened t before after) : Unwinds g e f part opened (pre ++ t) (pre ++ before) after where
  split := by rw [hu.split, List.append_assoc]
  completed := by
    rw [Course.calls_append]
    exact List.forall_mem_append.mpr ⟨hcompleted, hu.completed⟩
  reaches around := by
    rw [Course.calls_append, List.foldlM_append, hpre.closed around]
    exact hu.reaches around
  raised := hu.raised.prepend pre
  unwinding := hu.unwinding

theorem Unwinds.after_token {opened : List OpenRun} {before after : Course} {v : TokenView}
    (hu : Unwinds g e f part opened t before after) :
    Unwinds g e f part opened (⟨.token, v⟩ :: t) (⟨.token, v⟩ :: before) after := by
  have hquiet : Brackets (fun _ => True) (Course.calls [⟨.token, v⟩]) := .quiet trivial (List.forall_mem_nil _)
  exact hu.prepend hquiet (List.forall_mem_nil _)

/-- A failure that comes up in the part itself, with no step run open. -/
theorem Unwinds.here (hclosed : ∀ m ∈ t.calls, m.call.isStepRun = false) (hraised : part.Raises g e f [] t) :
    Unwinds g e f part [] t t [] where
  split := (List.append_nil t).symm
  completed m hm := Made.closesCompleted_of_isStepRun (hclosed m hm)
  reaches around := foldlM_quiet (fun m hm => Made.isQuiet_of_isStepRun (hclosed m hm)) around
  raised := hraised
  unwinding := .done

/-- The failure of a handler closes the step run around it. -/
theorem Unwinds.record {path : StepPath} {task : Task} {n n' : Binary64} {id : String} {opened : List OpenRun}
    {before after : Course} (hleads : (g.handle e path task).Leads vs t (.error f) vs')
    (hu : Unwinds g e f (.handler path task) opened t before after) :
    Unwinds g e f (.step path task) (opened ++ [⟨id, path⟩])
      (⟨.now, n⟩ :: ⟨.call (.createStepRun (e.startOf path task.kind n)) none, (.ok id : Except Failure String)⟩ :: t ++
        [⟨.now, n'⟩, ⟨.call (.updateStepRun e.actor.tenant id (.ofResult (.error f) n n')) none,
          (.ok () : Except Failure Unit)⟩])
      (⟨.now, n⟩ :: ⟨.call (.createStepRun (e.startOf path task.kind n)) none, (.ok id : Except Failure String)⟩ :: before)
      (after ++ [⟨.now, n'⟩, ⟨.call (.updateStepRun e.actor.tenant id (.ofResult (.error f) n n')) none,
        (.ok () : Except Failure Unit)⟩]) where
  split := by
    rw [hu.split]
    simp only [List.cons_append, List.append_assoc]
  completed := List.forall_mem_cons.mpr ⟨nofun, hu.completed⟩
  reaches around := by
    rw [List.append_assoc]
    exact hu.reaches (⟨id, path⟩ :: around)
  raised := by
    cases opened with
    | cons run opened => exact RaisedIn.prepend [_, _] hu.raised
    | nil =>
      have hbefore : t = before := by rw [hu.split, hu.unwinding.eq_nil, List.append_nil]
      exact ⟨[⟨.now, n⟩], task, n, before, vs, vs', rfl, hbefore ▸ hleads, hu.reaches []⟩
  unwinding := .close hu.unwinding rfl

/-- Inside an open step run it does not matter which part the run is in. -/
theorem Unwinds.mono {part' : Part} {opened : List OpenRun} {before after : Course}
    (hu : Unwinds g e f part opened t before after)
    (hraises : part.Raises g e f [] before → part'.Raises g e f [] before) : Unwinds g e f part' opened t before after where
  split := hu.split
  completed := hu.completed
  reaches := hu.reaches
  raised := by
    have hraised := hu.raised
    cases opened with
    | nil => exact hraises hraised
    | cons run opened => exact hraised
  unwinding := hu.unwinding

/-- **A walk that fails unwinds**, if all its records are made. -/
theorem Walk.unwinds {r : Except Failure Unit} (h : Walk g e part vs t r vs') (hr : r = .error f) (ht : t.IsRecorded) :
    ∃ opened before after, Unwinds g e f part opened t before after := by
  induction h with
  | finished => cases hr
  | @stopped _ _ _ _ v f' hv =>
    cases hr
    exact ⟨[], _, [], .here (List.forall_mem_nil _) ⟨[], v, rfl, hv⟩⟩
  | fails _ _ ih =>
    obtain ⟨opened, before, after, hu⟩ := ih hr ht
    exact ⟨opened, _, after, (hu.mono False.elim).after_token⟩
  | @goesOn place s rest _ _ _ _ _ _ _ _ hstep _ _ ih' =>
    obtain ⟨-, ht'⟩ := Course.isRecorded_append.mp ht
    obtain ⟨opened, before, after, hu⟩ := ih' hr ht'
    have hlist : Unwinds g e f (.steps place (s :: rest)) opened _ before after := hu.mono fun h => h
    exact ⟨opened, _, after, (hlist.prepend hstep.brackets (hstep.completed rfl)).after_token⟩
  | refused =>
    obtain ⟨a, ⟨⟩⟩ := ht _ List.mem_cons_self rfl
  | @recorded path task vs vs' n n' id t r a hleads _ ih =>
    obtain ⟨ht₁, ht₂⟩ := Course.isRecorded_append.mp ht
    obtain ⟨⟨⟩, rfl⟩ : ∃ u, a = .ok u := ht₂ _ List.mem_cons_self rfl
    obtain rfl : r = .error f := hr
    obtain ⟨opened, before, after, hu⟩ := ih rfl fun m hm => ht₁ m (List.mem_cons_of_mem _ hm)
    exact ⟨_, _, _, hu.record hleads⟩
  | unknown => exact ⟨[], _, [], .here (List.forall_mem_nil _) trivial⟩
  | plain hp h =>
    have hquiet := fun m hm => Call.isStepRun_of_isErrand (calls_of_plain hp h m hm)
    exact ⟨[], _, [], .here hquiet trivial⟩
  | unlisted => exact ⟨[], _, [], .here (List.forall_mem_nil _) trivial⟩
  | looped _ _ ih =>
    obtain ⟨opened, before, after, hu⟩ := ih hr ht
    exact ⟨opened, before, after, hu.mono fun _ => trivial⟩
  | ended => cases hr
  | broken _ ih =>
    obtain ⟨opened, before, after, hu⟩ := ih hr ht
    exact ⟨opened, before, after, hu.mono fun h => h⟩
  | @again path body i x rest _ _ _ _ _ _ hpass _ _ ih' =>
    obtain ⟨-, ht'⟩ := Course.isRecorded_append.mp ht
    obtain ⟨opened, before, after, hu⟩ := ih' hr ht'
    have hpasses : Unwinds g e f (.passes path body i (x :: rest)) opened _ before after := hu.mono fun h => h
    exact ⟨opened, _, after, hpasses.prepend hpass.brackets (hpass.completed rfl)⟩

/-! ## Whole runs -/

/-- The steps of a run come to a failure, which unwinds in this course; or the workflow cannot be loaded. -/
def BodyUnwinds (g : Engine) (e : Opened) (stored : StoredWorkflow) (f : Failure) (t : Course) : Prop :=
  (Workflow.load g.loopLimit stored = .error f ∧ t = []) ∨
    ∃ w opened before after, Workflow.load g.loopLimit stored = .ok w ∧ Nested .top w.steps opened ∧
      Unwinds g e f (.steps .top w.steps) opened t before after

theorem bodyUnwinds_of_leads {stored : StoredWorkflow} (h : (g.body e stored).Leads vs t (.error f) vs')
    (ht : t.IsRecorded) : BodyUnwinds g e stored f t := by
  obtain ⟨f', hf, rfl, hr, -⟩ | ⟨w, hw, h⟩ := leads_body h
  · cases hr
    exact .inl ⟨hf, rfl⟩
  · have hwalk := walk_of_leads _ _ _ _ h
    obtain ⟨opened, before, after, hu⟩ := hwalk.unwinds rfl ht
    refine .inr ⟨w, opened, before, after, hw, ?_, hu⟩
    have hbefore : before.calls <+: t.calls := by
      rw [hu.split, Course.calls_append]
      exact List.prefix_append _ _
    obtain ⟨opened', hfold, hnested⟩ := hwalk.brackets.along hbefore []
    rw [hu.reaches [], List.append_nil, List.append_nil] at hfold
    cases hfold
    exact hnested

theorem body_completed {stored : StoredWorkflow} (h : (g.body e stored).Leads vs t (.ok ()) vs') :
    ∀ m ∈ t.calls, m.ClosesCompleted := by
  obtain ⟨f', -, -, ⟨⟩, -⟩ | ⟨w, -, h⟩ := leads_body h
  exact (walk_of_leads _ _ _ _ h).completed rfl

theorem isAudit_of_isVain {m : Made} (h : m.isVain) (hm : m.call.isAudit → ∃ a, m.outcome = .ok a) :
    m.call.isAudit = false := by
  obtain ⟨c, r⟩ := m
  cases c with
  | createExecution start =>
    cases r with
    | error f => obtain ⟨id, ⟨⟩⟩ := hm rfl
    | ok id => cases h
  | getWorkflow => rfl
  | _ => cases h

/-- **A failing run unwinds**, in all surroundings in which every record is made. It records nothing at all, or its steps fail,
unwind and the execution is closed by the same failure, which is that of the run. That is so exactly if the variables have a
recorded form at the end. If they have none, the execution is not closed and the run fails by that instead. -/
theorem failing_run_unwinds (g : Engine) (o : Order) (s : Surroundings (Request Call) (Request.Reply Call.Answer))
    (f : Failure) (hrecorded : Course.IsRecorded ((g.run o).run.under s).1) (hf : ((g.run o).run.under s).2 = .error f) :
    let t := ((g.run o).run.under s).1
    (∀ m ∈ Course.calls t, m.call.isAudit = false) ∨
    ∃ stored n start id vs inner r final n',
      startVariables stored o = .ok vs ∧ (g.body ⟨id, o.actor, Clock.stamp n⟩ stored).Leads vs inner r final ∧
      (r = .ok () → ∀ m ∈ Course.calls inner, m.ClosesCompleted) ∧
      (∀ f', r = .error f' → BodyUnwinds g ⟨id, o.actor, Clock.stamp n⟩ stored f' inner) ∧
      ((∃ w last, final.recorded = .ok w ∧ r = .error f ∧ last.outcome = .failed f.summary ∧
          t = g.opening o stored n start id ++ inner ++ [⟨.now, n'⟩,
            ⟨.call (.updateExecution o.actor.tenant id last) none, (.ok () : Except Failure Unit)⟩, ⟨.delist id, ()⟩]) ∨
        (final.recorded = .error f ∧
          t = g.opening o stored n start id ++ inner ++ [⟨.now, n'⟩, ⟨.delist id, ()⟩])) := by
  have hj := journey_of_leads (Program.leads_under s (g.run o).run)
  generalize (g.run o).run.under s = p at hrecorded hf hj ⊢
  obtain ⟨t, result⟩ := p
  dsimp only at hrecorded hf hj ⊢
  cases hj with
  | unopened hvain =>
    exact .inl fun m hm => isAudit_of_isVain (hvain m hm) (hrecorded m hm)
  | @opened stored vs final n start id inner closing r r' hvs hbody hclosing =>
    obtain ⟨hin, hend⟩ := Course.isRecorded_append.mp
      (Course.isRecorded_append.mp (Course.isRecorded_append.mp hrecorded).1).2
    refine .inr ⟨stored, n, start, id, vs, inner, r, final, ?_⟩
    cases hclosing with
    | @unrecorded n' f' hfinal =>
      cases hf
      refine ⟨n', hvs, hbody, ?_, ?_, .inr ⟨hfinal, by simp only [List.append_assoc]; rfl⟩⟩
      · rintro rfl
        exact body_completed hbody
      · rintro f' rfl
        exact bodyUnwinds_of_leads hbody hin
    | @recorded n' w a hfinal =>
      obtain ⟨⟨⟩, rfl⟩ : ∃ u, a = .ok u := hend _ List.mem_cons_self rfl
      obtain rfl : r = .error f := by
        cases r with
        | error f' => exact congrArg Except.error (Except.error.inj hf)
        | ok _ => cases hf
      refine ⟨n', hvs, hbody, nofun, ?_, .inl ⟨w, _, hfinal, rfl, rfl, by simp only [List.append_assoc]; rfl⟩⟩
      rintro f' ⟨⟩
      exact bodyUnwinds_of_leads hbody hin

end Engine

namespace Posting

theorem isRecorded_posted : posted.1.IsRecorded := by
  intro m hm haudit
  obtain ⟨limit, hx⟩ := Course.mem_calls.mp hm
  obtain ⟨past, hpast⟩ := Program.exists_reply_of_mem_under hx
  obtain ⟨c, r⟩ := m
  obtain rfl : r = lost past (.call c limit) := hpast
  cases c with
  | sendEmail => cases haudit
  | _ => exact ⟨_, rfl⟩

/-- The failure of the email comes up in its step run and unwinds: that step run, the one of the loop and the execution are all
closed as failed, with the name of the failure, since it has no message. -/
theorem posted_unwinds :
    stepOutcomes posted.1 = [.failed "SMTPServerDisconnected", .failed "SMTPServerDisconnected"] ∧
      ∃ n id inner last, Engine.BodyUnwinds {} ⟨id, Mailing.order.actor, Clock.stamp n⟩ stored
          (.reported "SMTPServerDisconnected" "" none) inner ∧
        inner <:+: posted.1 ∧ last.outcome = .failed "SMTPServerDisconnected" ∧
        ⟨.updateExecution "tenant" id last, .ok ()⟩ ∈ Course.calls posted.1 := by
  refine ⟨stepOutcomes_posted, ?_⟩
  obtain hno | ⟨stored', n, begun, id, vs, inner, r, final, n', -, -, -, hunwinds, ⟨w, last, -, rfl, hlast, ht⟩ | ⟨hfinal, -⟩⟩ :=
    Engine.failing_run_unwinds {} Mailing.order lost _ isRecorded_posted (eq_of_isLost isLost_posted)
  · exact absurd (hno _ created_posted) Bool.noConfusion
  · replace ht : posted.1 = _ := ht
    obtain rfl : stored' = stored := eq_stored (ht.trans (List.append_assoc _ _ _))
    refine ⟨n, id, inner, last, hunwinds _ rfl, ⟨_, _, ht.symm⟩, hlast, ?_⟩
    rw [ht]
    exact Course.mem_calls.mpr ⟨none, List.mem_append_right _ (List.mem_cons_of_mem _ List.mem_cons_self)⟩
  · -- what has no recorded form is misuse, and not reported from outside
    obtain ⟨_, ⟨⟩⟩ := mapError_eq_error hfinal

end Posting

end Runbook
