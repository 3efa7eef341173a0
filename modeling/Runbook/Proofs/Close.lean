import Runbook.Proofs.Journey
import Runbook.Proofs.Reading
import Runbook.Proofs.Task

/-!
# The closing of an execution

Once an execution is open it is closed by exactly one call, the last of the run, whatever the run is answered: collaborators
may fail or be interrupted at any call, also at those that record a failure, and the token may say no at any moment. The
variables have a recorded form at the end because they begin with one and steps set only values that have one.

* `Walk.calls`: the calls of a walk; `Walk.areRecordable`: its variables stay recordable.
* **`Engine.closes_once`**: the one closing of an execution, and with which status.
* `Posting.posted`: a run that loses its mail transport in a loop, and so fails.
-/

namespace Runbook

/-- A call that records a step run. -/
def Call.isStepRun : Call → Bool
  | createStepRun _ | updateStepRun .. => true
  | _ => false

theorem Call.isStepRun_of_isErrand {c : Call} (h : c.isErrand) : c.isStepRun = false := by
  cases c <;> first | rfl | cases h

theorem Variables.AreRecordable.forPass {vs : Variables} {x : Value} (hvs : vs.AreRecordable) (hx : x.isRecordable)
    (i : Nat) : (vs.forPass i x).AreRecordable :=
  (hvs.set rfl "current_index").set hx "current_item"

namespace Engine

variable {g : Engine} {o : Order} {e : Opened} {part : Part} {vs vs' : Variables} {t : Course} {r : Except Failure Unit}

/-! ## Calls and variables of a walk -/

/-- What is true of the calls that record step runs and of those of tasks without steps is true of all calls of a walk. -/
theorem Walk.forall_calls {P : Call → Prop} (h : Walk g e part vs t r vs')
    (hcreate : ∀ start : StepRunStart, start.tenant = e.actor.tenant → P (.createStepRun start))
    (hupdate : ∀ id last, P (.updateStepRun e.actor.tenant id last))
    (hplain : ∀ {path : StepPath} {task : Task} {vs vs' : Variables} {t : Course} {r : Except Failure Unit}, task.isPlain →
      (g.execute e path task).Leads vs t r vs' → ∀ m ∈ t.calls, P m.call) : ∀ m ∈ t.calls, P m.call := by
  induction h with
  | finished => exact List.forall_mem_nil _
  | stopped => exact List.forall_mem_nil _
  | fails _ _ ih => exact ih
  | goesOn _ _ _ ih ih' =>
    rw [Course.calls_append]
    exact List.forall_mem_append.mpr ⟨ih, ih'⟩
  | refused => exact List.forall_mem_singleton.mpr (hcreate _ rfl)
  | recorded _ _ ih =>
    rw [Course.calls_append]
    refine List.forall_mem_append.mpr ⟨List.forall_mem_cons.mpr ⟨hcreate _ rfl, ih⟩, ?_⟩
    exact List.forall_mem_singleton.mpr (hupdate _ _)
  | unknown => exact List.forall_mem_nil _
  | plain hp h => exact hplain hp h
  | unlisted => exact List.forall_mem_nil _
  | looped _ _ ih => exact ih
  | ended => exact List.forall_mem_nil _
  | broken _ ih => exact ih
  | again _ _ ih ih' =>
    rw [Course.calls_append]
    exact List.forall_mem_append.mpr ⟨ih, ih'⟩

/-- The calls of a walk record step runs or are errands of its tasks. -/
theorem Walk.calls (h : Walk g e part vs t r vs') : ∀ m ∈ t.calls, m.call.isStepRun ∨ m.call.isErrand :=
  h.forall_calls (P := fun c => c.isStepRun ∨ c.isErrand) (fun _ _ => .inl rfl) (fun _ _ => .inl rfl)
    fun hp h m hm => .inr (calls_of_plain hp h m hm)

theorem failure_of_foundItems {Q : Failure → Prop} (hQ : g.registry.Covers Q) {collection : String} {f : Failure}
    (h : foundItems vs collection = .error f) : Q f := by
  unfold foundItems at h
  cases hv : vs.lookup (.str collection) with
  | error f' =>
    rw [hv] at h
    cases h
    obtain ⟨e, rfl⟩ := mapError_eq_error hv
    exact hQ.misuse _
  | ok v =>
    rw [hv] at h
    cases v <;> cases h <;> exact hQ.notAnArray _

/-- The failures of a walk are those that it is answered with and those of the engine itself. -/
theorem Walk.failsBy {Q : Failure → Prop} (hQ : g.registry.Covers Q) {f : Failure} (h : Walk g e part vs t r vs')
    (hr : r = .error f) (ht : t.Meets Q) : Q f := by
  induction h with
  | finished => cases hr
  | stopped hv =>
    cases hr
    exact ht _ List.mem_cons_self _ (Exchange.met?_token hv)
  | fails _ _ ih => exact ih hr (Course.meets_cons.mp ht).2
  | goesOn _ _ _ _ ih' => exact ih' hr (Course.meets_append.mp (Course.meets_cons.mp ht).2).2
  | refused =>
    cases hr
    exact (Course.meets_cons.mp (Course.meets_cons.mp ht).2).1 _ rfl
  | @recorded path task vs vs' n n' id t r a _ _ ih =>
    obtain ⟨ht₁, ht₂⟩ := Course.meets_append.mp (Course.meets_cons.mp (Course.meets_cons.mp ht).2).2
    cases a with
    | error f' =>
      cases hr
      exact (Course.meets_cons.mp (Course.meets_cons.mp ht₂).2).1 _ rfl
    | ok _ => exact ih hr ht₁
  | unknown hk =>
    cases hr
    exact hQ.kind hk
  | plain hp h => exact failsBy_of_plain hQ hp _ _ _ _ (hr ▸ h) ht
  | unlisted hf =>
    cases hr
    exact failure_of_foundItems hQ hf
  | looped _ _ ih => exact ih hr ht
  | ended => cases hr
  | broken _ ih => exact ih hr ht
  | again _ _ _ ih' => exact ih' hr (Course.meets_append.mp ht).2

theorem areRecordable_foundItems {collection : String} {items : List Value} (hvs : vs.AreRecordable)
    (h : foundItems vs collection = .ok items) : ∀ x ∈ items, x.isRecordable := by
  unfold foundItems at h
  cases hv : vs.lookup (.str collection) with
  | error f =>
    rw [hv] at h
    cases h
  | ok v =>
    have hr := hvs.lookup hv
    rw [hv] at h
    cases v with
    | null =>
      cases h
      exact List.forall_mem_nil _
    | list xs =>
      cases h
      exact Value.isRecordable_list.mp hr
    | tuple xs =>
      cases h
      exact Value.isRecordable_tuple.mp hr
    | _ => cases h

/-- The items that a part of a walk has still to go over are recordable. -/
def Part.AreRecordable : Part → Prop
  | .passes _ _ _ items => ∀ x ∈ items, x.isRecordable
  | _ => True

/-- A walk that begins with recordable variables leaves such. -/
theorem Walk.areRecordable (h : Walk g e part vs t r vs') (hp : part.AreRecordable) (hvs : vs.AreRecordable) :
    vs'.AreRecordable := by
  induction h with
  | finished => exact hvs
  | stopped => exact hvs
  | fails _ _ ih => exact ih trivial hvs
  | goesOn _ _ _ ih ih' => exact ih' trivial (ih trivial hvs)
  | refused => exact hvs
  | recorded _ _ ih => exact ih trivial hvs
  | unknown => exact hvs
  | plain hplain h => exact areRecordable_of_plain hplain h hvs
  | unlisted => exact hvs
  | looped hitems _ ih => exact ih (fun x hx => areRecordable_foundItems hvs hitems x (List.mem_of_mem_take hx)) hvs
  | ended => exact hvs
  | broken _ ih => exact ih trivial (hvs.forPass (hp _ List.mem_cons_self) _)
  | again _ _ ih ih' =>
    exact ih' (fun x hx => hp x (List.mem_cons_of_mem _ hx))
      (ih trivial (hvs.forPass (hp _ List.mem_cons_self) _))

theorem body_of_load {stored : StoredWorkflow} {w : Workflow} (h : Workflow.load g.loopLimit stored = .ok w) :
    g.body e stored = g.runAll e .top w.steps := by
  unfold body
  rw [h]
  rfl

theorem leads_body {stored : StoredWorkflow} (h : (g.body e stored).Leads vs t r vs') :
    (∃ f, Workflow.load g.loopLimit stored = .error f ∧ t = [] ∧ r = .error f ∧ vs' = vs) ∨
      ∃ w, Workflow.load g.loopLimit stored = .ok w ∧ (g.runAll e .top w.steps).Leads vs t r vs' := by
  obtain ⟨f, h₁, rfl⟩ | ⟨w, vs₁, t₁, t₂, h₁, h₂, rfl⟩ := Run.leads_bind.mp h
  · obtain ⟨rfl, hf, rfl⟩ := Run.leads_liftExcept.mp h₁
    exact .inl ⟨f, hf.symm, rfl, rfl, rfl⟩
  · obtain ⟨rfl, hw, rfl⟩ := Run.leads_liftExcept.mp h₁
    exact .inr ⟨w, hw.symm, h₂⟩

theorem body_calls {stored : StoredWorkflow} (h : (g.body e stored).Leads vs t r vs') :
    ∀ m ∈ t.calls, m.call.isStepRun ∨ m.call.isErrand := by
  obtain ⟨f, -, rfl, -, -⟩ | ⟨w, -, h⟩ := leads_body h
  · exact List.forall_mem_nil _
  · exact (walk_of_leads _ _ _ _ h).calls

theorem body_areRecordable {stored : StoredWorkflow} (h : (g.body e stored).Leads vs t r vs') (hvs : vs.AreRecordable) :
    vs'.AreRecordable := by
  obtain ⟨f, -, -, -, rfl⟩ | ⟨w, -, h⟩ := leads_body h
  · exact hvs
  · exact (walk_of_leads _ _ _ _ h).areRecordable trivial hvs

/-! ## The closing -/

/-- The steps of the workflow are all taken in this course, from the variables that the run begins with. -/
def Completes (g : Engine) (o : Order) (stored : StoredWorkflow) (e : Opened) (t : Course) : Prop :=
  ∃ vs w vs', startVariables stored o = .ok vs ∧ Workflow.load g.loopLimit stored = .ok w ∧
    (g.runAll e .top w.steps).Leads vs t (.ok ()) vs'

theorem completes_iff {stored : StoredWorkflow} (hvs : startVariables stored o = .ok vs)
    (h : (g.body e stored).Leads vs t r vs') : Completes g o stored e t ↔ r = .ok () := by
  constructor
  · rintro ⟨vs₁, w, vs₂, hvs₁, hw, hok⟩
    rw [hvs] at hvs₁
    cases hvs₁
    obtain ⟨f, hf, -⟩ | ⟨w', hw', h⟩ := leads_body h
    · rw [hw] at hf
      cases hf
    · rw [hw] at hw'
      cases hw'
      exact (h.result_unique hok).1
  · rintro rfl
    obtain ⟨f, -, -, ⟨⟩, -⟩ | ⟨w, hw, h⟩ := leads_body h
    exact ⟨vs, w, vs', hvs, hw, h⟩

/-- An open execution is the only one that its run creates. -/
theorem created_iff {stored : StoredWorkflow} {n : Binary64} {start start' : ExecutionStart} {id id' : String} {inner : Course}
    (hinner : ∀ m ∈ inner.calls, ∀ start, m.call ≠ .createExecution start) :
    ⟨.createExecution start, .ok id⟩ ∈ Course.calls (g.opening o stored n start' id' ++ inner ++ [⟨.delist id', ()⟩]) ↔
      start = start' ∧ id = id' := by
  rw [Course.calls_append, Course.calls_append, calls_opening, Course.calls_delist, Course.calls_nil, List.append_nil]
  constructor
  · intro h
    rcases List.mem_cons.mp h with h | h
    · cases h
    rcases List.mem_cons.mp h with h | h
    · cases h
      exact ⟨rfl, rfl⟩
    · exact absurd rfl (hinner _ h start)
  · rintro ⟨rfl, rfl⟩
    exact List.mem_cons_of_mem _ List.mem_cons_self

theorem ne_createExecution {c : Call} (h : c.isStepRun ∨ c.isErrand) (start : ExecutionStart) : c ≠ .createExecution start := by
  rintro rfl
  exact h.elim Bool.false_ne_true Bool.false_ne_true

theorem Closing.ne_createExecution {r' : Except Failure Unit} (h : Closing e r vs t r') :
    ∀ m ∈ t.calls, ∀ start, m.call ≠ .createExecution start := by
  cases h with
  | unrecorded => exact List.forall_mem_nil _
  | recorded => exact List.forall_mem_singleton.mpr fun _ => nofun

/-- Nothing that is done while an execution is open creates another one. -/
theorem inner_ne_createExecution {stored : StoredWorkflow} {t' : Course} {r' : Except Failure Unit}
    (hbody : (g.body e stored).Leads vs t r vs') (hclosing : Closing e r vs' t' r') :
    ∀ m ∈ Course.calls (t ++ t'), ∀ start, m.call ≠ .createExecution start := by
  rw [Course.calls_append]
  exact List.forall_mem_append.mpr ⟨fun m hm => ne_createExecution (body_calls hbody m hm), hclosing.ne_createExecution⟩

theorem isStepRun_of_isVain {m : Made} (h : m.isVain) : m.call.isStepRun = false := by
  obtain ⟨c, r⟩ := m
  cases c <;> first | rfl | cases h

theorem Closing.isStepRun {r' : Except Failure Unit} (h : Closing e r vs t r') : ∀ m ∈ t.calls, m.call.isStepRun = false := by
  cases h with
  | unrecorded => exact List.forall_mem_nil _
  | recorded => exact List.forall_mem_singleton.mpr rfl

theorem opening_isStepRun {o : Order} {stored : StoredWorkflow} {n : Binary64} {start : ExecutionStart} {id : String} :
    ∀ m ∈ Course.calls (g.opening o stored n start id), m.call.isStepRun = false := by
  rw [calls_opening]
  exact List.forall_mem_cons.mpr ⟨rfl, List.forall_mem_singleton.mpr rfl⟩

/-- What records the end of an execution is its closing. -/
theorem mem_calls_updateExecution {stored : StoredWorkflow} {n : Binary64} {start : ExecutionStart} {id : String} {t' : Course}
    (hbody : (g.body e stored).Leads vs t r vs') {tenant execution : String} {last : ExecutionEnd} {a : Except Failure Unit} :
    ⟨.updateExecution tenant execution last, a⟩ ∈
      Course.calls (g.opening o stored n start id ++ (t ++ t') ++ [⟨.delist id, ()⟩]) ↔
        ⟨.updateExecution tenant execution last, a⟩ ∈ t'.calls := by
  rw [Course.calls_append, Course.calls_append, Course.calls_append, calls_opening, Course.calls_delist, Course.calls_nil,
    List.append_nil, List.mem_append, List.mem_append]
  constructor
  · rintro (h | h | h)
    · rcases List.mem_cons.mp h with h | h
      · cases h
      · cases List.mem_singleton.mp h
    · rcases body_calls hbody _ h with h | h <;> cases h
    · exact h
  · exact fun h => .inr (.inr h)

theorem status_iff {r : Except Failure Unit} {P : Prop} (h : P ↔ r = .ok ()) :
    ((Outcome.ofResult r).status = "completed" ↔ P) ∧ ((Outcome.ofResult r).status = "failed" ↔ ¬ P) := by
  have hne : "completed" ≠ "failed" := by decide
  rw [h]
  cases r with
  | error f => exact ⟨⟨fun h => absurd h.symm hne, nofun⟩, ⟨fun _ => nofun, fun _ => rfl⟩⟩
  | ok u => exact ⟨⟨fun _ => rfl, fun _ => rfl⟩, ⟨fun h => absurd h hne, fun h => absurd rfl h⟩⟩

/-- **An execution is closed once**, in all surroundings, if the variables of the workflow and of the order are recordable.
When an execution is created, a single call closes it. It follows all calls that record steps and is the last call of the
run, and its status is that of the steps. Where none is created, nothing is closed and no step is recorded. -/
theorem closes_once (g : Engine) (o : Order) (s : Surroundings (Request Call) (Request.Reply Call.Answer))
    (hgiven : o.given.AreRecordable)
    (hstored : ∀ past stored, (s past (.call (.getWorkflow o.actor.tenant o.workflow) none) :
      Except Failure (Option StoredWorkflow)) = .ok (some stored) → stored.initial.isRecordable) :
    let t := ((g.run o).run.under s).1
    (∀ start id, ⟨.createExecution start, .ok id⟩ ∈ Course.calls t →
      ∃ stored n inner n' last answer,
        t = g.opening o stored n start id ++ inner ++
          [⟨.now, n'⟩, ⟨.call (.updateExecution o.actor.tenant id last) none, answer⟩, ⟨.delist id, ()⟩] ∧
        (∀ m ∈ Course.calls inner, m.call.isStepRun ∨ m.call.isErrand) ∧
        (last.outcome.status = "completed" ↔ Completes g o stored ⟨id, o.actor, Clock.stamp n⟩ inner) ∧
        (last.outcome.status = "failed" ↔ ¬ Completes g o stored ⟨id, o.actor, Clock.stamp n⟩ inner)) ∧
    ((∀ start id, ⟨.createExecution start, .ok id⟩ ∉ Course.calls t) → ∀ m ∈ Course.calls t, m.isVain) := by
  have hanswer := fun x => Program.exists_reply_of_mem_under (s := s) (p := (g.run o).run) (x := x)
  have hj := journey_of_leads (Program.leads_under s (g.run o).run)
  generalize (g.run o).run.under s = p at hanswer hj ⊢
  obtain ⟨t, result⟩ := p
  dsimp only at hanswer hj ⊢
  cases hj with
  | unopened hvain => exact ⟨fun start id hm => (nomatch hvain _ hm), fun _ => hvain⟩
  | @opened stored vs final n start' id' body closing r r' hvs hbody hclosing =>
    obtain ⟨past, hpast⟩ := hanswer _ (List.mem_append_left _ (List.mem_append_left _ List.mem_cons_self))
    have hvsr := startVariables_areRecordable (hstored past stored hpast.symm) hgiven hvs
    have hcalls := body_calls hbody
    have hinner := inner_ne_createExecution hbody hclosing
    refine ⟨fun start id hm => ?_, fun hno => absurd ((created_iff hinner).mpr ⟨rfl, rfl⟩) (hno start' id')⟩
    obtain ⟨rfl, rfl⟩ := (created_iff hinner).mp hm
    cases hclosing with
    | unrecorded hf =>
      obtain ⟨w, hw⟩ := (body_areRecordable hbody hvsr).recorded_isOk
      rw [hw] at hf
      cases hf
    | recorded hw =>
      exact ⟨stored, n, body, _, _, _, by simp only [List.append_assoc]; rfl, hcalls,
        status_iff (completes_iff hvs hbody)⟩

end Engine

/-- What is left of a run once its execution is open: the steps and the closing, and then the result. -/
def Order.afterOpening (o : Order) (e : Opened) (vs : Variables) (conducted : Run Unit) :
    Attempt Call Call.Answer Execution := do
  let (result, final) ← ExceptT.lift (conducted.run.run vs)
  Attempt.ask (.delist e.id)
  result
  return ⟨e.id, o.actor.user, o.input, final⟩

/-! ## Mail from a loop -/

namespace Mailing

/-- A stored step that sends an email. -/
def step : Value :=
  .dict [(.str "id", .str "mail"), (.str "type", .str "action"),
    (.str "config", .dict [(.str "action", .str "send_email"), (.str "parameters",
      .dict [(.str "to", .str "a@x.com"), (.str "subject", .str "News"), (.str "body", .str "None.")])])]

/-- The same step when it is read. -/
def stepRead : Step := .mk "mail" (.action (.sendEmail (.line "a@x.com") "News" "None." none)) none none

/-- An order of the mailing. -/
def order : Order := ⟨"workflow", ⟨"tenant", "user"⟩, [], []⟩

end Mailing

namespace Posting

/-- A stored loop that sends an email for each item, with its kind and its limit in their other spellings. -/
def step : Value :=
  .dict [(.str "id", .str "each"), (.str "kind", .str "loop"),
    (.str "config", .dict [(.str "collection", .str "items"), (.str "maxIterations", .str "2"),
      (.str "steps", .list [Mailing.step])])]

/-- The same loop when it is read. -/
def stepRead : Step := .mk "each" (.loop "items" 2 [Mailing.stepRead]) none none

/-- A workflow with this loop only. -/
def stored : StoredWorkflow :=
  { id := .str "workflow", tenant := .str "tenant", steps := .list [step],
    initial := .dict [(.str "items", .list [.int 1])] }

theorem load_stored (limit : Value) :
    Workflow.load limit stored = .ok ⟨"workflow", "tenant", "", [("items", .list [.int 1])], [stepRead]⟩ := by
  have hbody : Step.readAll limit [Mailing.step] = .ok [Mailing.stepRead] :=
    Step.readAll_cons_of_ok (Step.read_of_bodiless rfl rfl rfl rfl rfl rfl) (Step.readAll_nil _)
  have hsteps : Step.readAll limit [step] = .ok [stepRead] :=
    Step.readAll_cons_of_ok (Step.read_of_parts rfl rfl rfl rfl hbody rfl) (Step.readAll_nil _)
  unfold Workflow.load
  show Step.readAll limit [step] >>= _ = _
  rw [hsteps]
  rfl

/-- Surroundings that oblige, but lose the mail transport. -/
def lost : Surroundings (Request Call) (Request.Reply Call.Answer)
  | _, .call (.sendEmail _) _ => (.error (.reported "SMTPServerDisconnected" "" none) : Except Failure Unit)
  | past, q => obliging stored "" past q

/-- The run in these surroundings. -/
def posted : Course × Except Failure Execution := (({} : Engine).run Mailing.order).run.under lost

/-- Once its execution is open the run goes on with the steps that are read. -/
theorem posted_eq :
    let e : Opened := ⟨"execution", Mailing.order.actor, Clock.stamp (Binary64.zero false)⟩
    let vs : Variables := [(.str "items", .list [.int 1])]
    let start : ExecutionStart := ⟨"tenant", "workflow", "user", e.startedAt, .dict [], .dict vs⟩
    let opening := ({} : Engine).opening Mailing.order stored (Binary64.zero false) start e.id
    let left := (Mailing.order.afterOpening e vs (do
      let result ← Run.observe (({} : Engine).runAll e .top [stepRead])
      Engine.close e (.ofResult result)
      result)).run.after lost opening
    posted = (opening ++ left.1, left.2) := by
  intro e vs start opening left
  have hbody : ({} : Engine).body e stored = ({} : Engine).runAll e .top [stepRead] := Engine.body_of_load (load_stored _)
  show posted = _
  unfold left
  rw [← hbody]
  rfl

/-- Whether a run has failed because the transport is lost. -/
def isLost : Except Failure Execution → Bool
  | .error (.reported name message none) => name == "SMTPServerDisconnected" && message == ""
  | _ => false

theorem eq_of_isLost {r : Except Failure Execution} (h : isLost r = true) :
    r = .error (.reported "SMTPServerDisconnected" "" none) := by
  unfold isLost at h
  split at h
  · obtain ⟨hname, hmessage⟩ := Bool.and_eq_true_iff.mp h
    rw [eq_of_beq hname, eq_of_beq hmessage]
  · cases h

theorem isLost_posted : isLost posted.2 = true := by
  rw [posted_eq]
  decide +kernel

theorem failure?_lost {past : Course} {q : Request Call} {f : Failure} (h : Exchange.failure? ⟨q, lost past q⟩ = some f) :
    f = .reported "SMTPServerDisconnected" "" none := by
  cases q with
  | call c limit => cases c <;> cases h; rfl
  | _ => cases h

/-- The start of its execution. -/
def start : ExecutionStart :=
  ⟨"tenant", "workflow", "user", Clock.stamp (Binary64.zero false), .dict [], .dict [(.str "items", .list [.int 1])]⟩

theorem found_posted : ⟨.getWorkflow "tenant" "workflow", .ok (some stored)⟩ ∈ Course.calls posted.1 := by
  rw [posted_eq]
  exact List.mem_cons_self

theorem created_posted : ⟨.createExecution start, .ok "execution"⟩ ∈ Course.calls posted.1 := by
  rw [posted_eq]
  exact List.mem_cons_of_mem _ List.mem_cons_self

/-- The run begins by reading this workflow. -/
theorem eq_stored {found : StoredWorkflow} {n : Binary64} {begun : ExecutionStart} {id : String} {rest : Course}
    (h : posted.1 = ({} : Engine).opening Mailing.order found n begun id ++ rest) : found = stored := by
  rw [posted_eq] at h
  cases (List.cons.inj h).1
  rfl

/-- The statuses with which executions are closed in a course. -/
def closings (t : Course) : List String :=
  t.calls.filterMap fun m => match m.call with
    | .updateExecution _ _ last => some last.outcome.status
    | _ => none

theorem mem_closings {t : Course} {tenant id : String} {last : ExecutionEnd} {a : Except Failure Unit}
    (h : ⟨.updateExecution tenant id last, a⟩ ∈ t.calls) : last.outcome.status ∈ closings t :=
  List.mem_filterMap.mpr ⟨_, h, rfl⟩

/-- The execution of this run is closed once, as failed, since its steps do not come to their end. -/
theorem posted_is_closed_once :
    closings posted.1 = ["failed"] ∧ ∃ n inner n' last answer,
      posted.1 = ({} : Engine).opening Mailing.order stored n start "execution" ++ inner ++
        [⟨.now, n'⟩, ⟨.call (.updateExecution "tenant" "execution" last) none, answer⟩, ⟨.delist "execution", ()⟩] ∧
      ¬ Engine.Completes {} Mailing.order stored ⟨"execution", Mailing.order.actor, Clock.stamp n⟩ inner := by
  have hclosings : closings posted.1 = ["failed"] := by
    rw [posted_eq]
    decide +kernel
  have hstored : ∀ (past : Course) (stored' : StoredWorkflow),
      (lost past (.call (.getWorkflow "tenant" "workflow") none) : Except Failure (Option StoredWorkflow)) =
        .ok (some stored') → stored'.initial.isRecordable := by
    rintro past stored' ⟨⟩
    decide +kernel
  obtain ⟨hcreated, -⟩ := Engine.closes_once {} Mailing.order lost (List.forall_mem_nil _) hstored
  obtain ⟨stored', n, inner, n', last, answer, ht, -, -, hfailed⟩ := hcreated _ _ created_posted
  replace ht : posted.1 = _ := ht
  obtain rfl : stored' = stored := eq_stored (ht.trans (List.append_assoc _ _ _))
  refine ⟨hclosings, n, inner, n', last, answer, ht, hfailed.mp ?_⟩
  have hclosed : ⟨.updateExecution "tenant" "execution" last, answer⟩ ∈ Course.calls posted.1 := by
    rw [ht]
    exact Course.mem_calls.mpr ⟨none, List.mem_append_right _ (List.mem_cons_of_mem _ List.mem_cons_self)⟩
  have hstatus := mem_closings hclosed
  rw [hclosings] at hstatus
  exact List.mem_singleton.mp hstatus

end Posting

end Runbook
