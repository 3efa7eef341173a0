import Runbook.Proofs.Heed

/-!
# What is loaded can be done

The reader of workflows and the lookups of a run are written apart: a step, an action, an operator or a table is named once in a
stored step, and it is looked up again when the step is taken. They agree. In an engine that lacks nothing no step of a loaded
workflow fails because something about it is unknown or missing.

* `Failure.isRejection`: the failures that say so.
* `Registry.IsComplete`, `Task.IsServed`: a registry that lacks nothing, and a task that all lookups find.
* `Engine.run_failure`: where the failures of a run come from.
* **`Engine.loaded_run_is_not_rejected`**: the steps of a loaded workflow, and its runs, are never rejected.
-/

namespace Runbook

/-! ## Rejections -/

/-- The names of the failures that reject a step, what it asks for or its workflow. -/
def rejectionNames : List String := [
  Fault.name (.unknownStepKind .null), Fault.name (.unknownOperator .null), Fault.name (.unsupportedAction .null),
  Fault.name (.unsupportedTable .null), Fault.name (.missingParameters "" []), Fault.name (.invalidStep (.config ""))]

/-- Whether a failure rejects a step, be it of the engine itself or reported by that name. -/
def Failure.isRejection (f : Failure) : Bool := rejectionNames.contains f.name

/-! ## Complete registries -/

/-- A registry with a handler for all kinds of steps and with all that actions need. -/
structure Registry.IsComplete (registry : Registry) : Prop where
  kinds (kind : StepKind) : kind ∈ registry.kinds
  email : registry.email
  tables (table : Table) : table ∈ registry.tables.getD []
  notifications : registry.notifications

namespace Registry.IsComplete

variable {registry : Registry}

theorem mem_actions (h : registry.IsComplete) (kind : ActionKind) : kind ∈ registry.actions := by
  have htables : registry.tables.isSome := by
    have hsuppliers := h.tables .suppliers
    cases ht : registry.tables with
    | none =>
      rw [ht] at hsuppliers
      cases hsuppliers
    | some ts => rfl
  unfold Registry.actions
  rw [if_pos h.email, if_pos htables, if_pos h.notifications]
  cases kind <;> decide

theorem checkKind (h : registry.IsComplete) (kind : StepKind) : registry.checkKind kind = .ok () := if_pos (h.kinds kind)

theorem checkAction (h : registry.IsComplete) (kind : ActionKind) : registry.checkAction kind = .ok () :=
  if_pos (h.mem_actions kind)

theorem checkTable (h : registry.IsComplete) (table : Table) : registry.checkTable table = .ok () :=
  if_pos (List.contains_iff_mem.mpr (h.tables table))

/-- The engine itself rejects nothing when it lacks nothing. -/
theorem covers (h : registry.IsComplete) : registry.Covers fun f => f.isRejection = false where
  kind hk := by rw [h.checkKind] at hk; cases hk
  action ha := by rw [h.checkAction] at ha; cases ha
  table ht := by rw [h.checkTable] at ht; cases ht
  misuse _ := rfl
  notAnArray _ := rfl
  unsafeUrl _ := rfl
  webhookFailed _ _ := rfl
  deadlineExceeded := rfl

end Registry.IsComplete

/-! ## Lookups by name -/

theorem StepKind.ofName?_name (kind : StepKind) : ofName? kind.name = some kind := by cases kind <;> decide

theorem ActionKind.ofName?_name (kind : ActionKind) : ofName? kind.name = some kind := by cases kind <;> decide

theorem Operator.ofName?_name (operator : Operator) : ofName? operator.name = some operator := by cases operator <;> decide

/-- The table that an action writes to. -/
def Action.table? : Action → Option Table
  | createRecord table _ | updateRecord table _ _ => some table
  | _ => none

/-- Whatever is looked up by a name when the task is done is found: the handler of its kind, its comparison, its action and the
table of that. -/
def Task.IsServed (registry : Registry) (task : Task) : Prop :=
  registry.resolveKind (.str task.kind.name) = .ok task.kind ∧
  match task with
  | .condition _ operator _ => ∀ actual expected, evaluate (.str operator.name) actual expected =
      (operator.evaluate actual expected).mapError fun e => .misuse (.notComparable e)
  | .action a => registry.resolveAction (.str a.kind.name) = .ok a.kind ∧
      ∀ table, a.table? = some table → registry.checkTable table = .ok ()
  | _ => True

theorem Registry.IsComplete.resolveKind {registry : Registry} (h : registry.IsComplete) (kind : StepKind) :
    registry.resolveKind (.str kind.name) = .ok kind := by
  have hfound : (StepKind.ofName? kind.name).filter registry.kinds.contains = some kind := by
    rw [StepKind.ofName?_name, Option.filter_some, if_pos (List.contains_iff_mem.mpr (h.kinds kind))]
  show (match (Except.ok ((StepKind.ofName? kind.name).filter registry.kinds.contains) : Except Failure _) >>= _ with
    | x => x) = _
  rw [hfound]
  rfl

theorem Registry.IsComplete.resolveAction {registry : Registry} (h : registry.IsComplete) (kind : ActionKind) :
    registry.resolveAction (.str kind.name) = .ok kind := by
  have hfound : (ActionKind.ofName? kind.name).filter registry.actions.contains = some kind := by
    rw [ActionKind.ofName?_name, Option.filter_some, if_pos (List.contains_iff_mem.mpr (h.mem_actions kind))]
  unfold Registry.resolveAction
  dsimp only
  rw [hfound]
  rfl

/-- Every task that a step can have is served by a complete registry. -/
theorem Registry.IsComplete.serves {registry : Registry} (h : registry.IsComplete) (task : Task) : task.IsServed registry := by
  refine ⟨h.resolveKind _, ?_⟩
  cases task with
  | condition path operator expected =>
    intro actual expected
    have hkey : (Value.str operator.name).unkeyable? = none := rfl
    unfold evaluate
    simp only [hkey, Operator.ofName?_name]
  | action a => exact ⟨h.resolveAction _, fun table _ => h.checkTable table⟩
  | _ => trivial

namespace Engine

variable {g : Engine} {o : Order} {e : Opened} {vs vs' : Variables} {t : Course} {r : Except Failure Unit} {f : Failure}
  {Q : Failure → Prop}

/-! ## The failures of a run -/

theorem handle_failsBy (hQ : g.registry.Covers Q) (path : StepPath) (task : Task) : (g.handle e path task).FailsBy Q :=
  fun _ _ _ _ h ht => (walk_of_handle g e path task h).failsBy hQ rfl ht

theorem find_failsBy (hmissing : ∀ workflow, Q (.fault (.workflowNotFound workflow))) : (find o).FailsBy Q := by
  refine .bind (.call _ _) fun stored? => ?_
  cases stored? with
  | none =>
    refine .liftExcept (x := .error (.fault (.workflowNotFound o.workflow))) ?_
    rintro f ⟨⟩
    exact hmissing _
  | some stored => exact .liftExcept (x := .ok stored) nofun

theorem failure_of_startVariables (hQ : g.registry.Covers Q) {stored : StoredWorkflow}
    (h : startVariables stored o = .error f) : Q f := by
  obtain ⟨e, rfl⟩ := mapError_eq_error h
  exact hQ.misuse _

theorem openExecution_failsBy (hQ : g.registry.Covers Q) : (g.openExecution o vs).FailsBy Q := by
  refine .bind (.ask _) fun n => ?_
  extract_lets startedAt
  refine .bind (.liftExcept fun f hf => ?_) fun input => .bind (.liftExcept fun f hf => ?_) fun snapshot =>
    .bind (.call _ _) fun id => .bind (.ask _) fun _ => .bind (.ask _) fun _ => .liftExcept (x := .ok _) nofun
  · obtain ⟨e, rfl⟩ := mapError_eq_error hf
    exact hQ.misuse _
  · obtain ⟨e, rfl⟩ := mapError_eq_error hf
    exact hQ.misuse _

theorem Closing.failure (hQ : g.registry.Covers Q) {t' : Course} {r' : Except Failure Unit} (h : Closing e r vs t' r')
    (hr : r' = .error f) (ht : t'.Meets Q) : Q f ∨ r = .error f := by
  cases h with
  | unrecorded hf =>
    cases hr
    obtain ⟨e, rfl⟩ := mapError_eq_error hf
    exact .inl (hQ.misuse _)
  | @recorded n w a hw =>
    cases a with
    | error f' =>
      cases hr
      exact .inl ((Course.meets_cons.mp (Course.meets_cons.mp ht).2).1 _ rfl)
    | ok _ => exact .inr hr

theorem conduct_failure (hQ : g.registry.Covers Q) {stored : StoredWorkflow}
    (h : (g.conduct e stored).Leads vs t (.error f) vs') (ht : t.Meets Q) :
    Q f ∨ Workflow.load g.loopLimit stored = .error f := by
  obtain ⟨t₁, t₂, r₁, rfl, hbody, hclosing⟩ := leads_conduct h
  obtain ⟨ht₁, ht₂⟩ := Course.meets_append.mp ht
  rcases hclosing.failure hQ rfl ht₂ with hf | rfl
  · exact .inl hf
  obtain ⟨f', hload, -, ⟨⟩, -⟩ | ⟨w, -, hwalk⟩ := leads_body hbody
  · exact .inr hload
  · exact .inl ((walk_of_leads _ _ _ _ hwalk).failsBy hQ rfl ht₁)

/-- **The failures of a run** are those that it is answered with, those of the engine itself and those of loading. -/
theorem run_failure (hQ : g.registry.Covers Q) (hmissing : ∀ workflow, Q (.fault (.workflowNotFound workflow)))
    (h : (g.run o).run.Leads t (.error f)) (ht : t.Meets Q) :
    Q f ∨ ∃ stored, ⟨.call (.getWorkflow o.actor.tenant o.workflow) none,
      (.ok (some stored) : Except Failure (Option StoredWorkflow))⟩ ∈ t ∧ Workflow.load g.loopLimit stored = .error f := by
  obtain ⟨f', h₁, ⟨⟩⟩ | ⟨stored, t₁, t₂, h₁, h₂, rfl⟩ := Attempt.leads_bind.mp h
  · exact .inl (find_failsBy hmissing _ _ h₁ ht)
  obtain ⟨x, rfl, hx⟩ := leads_find h₁
  obtain rfl := hx stored rfl
  have ht₂ := (Course.meets_append.mp ht).2
  obtain ⟨f', h₃, ⟨⟩⟩ | ⟨vs, t₃, t₄, h₃, h₄, rfl⟩ := Attempt.leads_bind.mp h₂
  · exact .inl (failure_of_startVariables hQ (Attempt.leads_liftExcept.mp h₃).2.symm)
  have ht₄ := (Course.meets_append.mp ht₂).2
  obtain ⟨f', h₅, ⟨⟩⟩ | ⟨e, t₅, t₆, h₅, h₆, rfl⟩ := Attempt.leads_bind.mp h₄
  · exact .inl (openExecution_failsBy hQ _ _ h₅ ht₄)
  have ht₆ := (Course.meets_append.mp ht₄).2
  obtain ⟨f', h₇, ⟨⟩⟩ | ⟨⟨r, final⟩, t₇, t₈, h₇, h₈, rfl⟩ := Attempt.leads_bind.mp h₆
  · obtain ⟨_, ⟨⟩, -⟩ := Attempt.leads_lift.mp h₇
  obtain ⟨_, ⟨⟩, hconduct⟩ := Attempt.leads_lift.mp h₇
  obtain ⟨f', h₉, ⟨⟩⟩ | ⟨⟨⟩, t₉, t₁₀, -, h₁₀, rfl⟩ := Attempt.leads_bind.mp h₈
  · obtain ⟨_, ⟨⟩, -⟩ := Attempt.leads_ask.mp h₉
  obtain ⟨f', h₁₁, ⟨⟩⟩ | ⟨⟨⟩, t₁₁, t₁₂, -, h₁₂, rfl⟩ := Attempt.leads_bind.mp h₁₀
  · obtain ⟨rfl, rfl⟩ := Attempt.leads_liftExcept.mp h₁₁
    rcases conduct_failure hQ hconduct (Course.meets_append.mp ht₆).1 with hf | hload
    · exact .inl hf
    · exact .inr ⟨stored, List.mem_cons_self, hload⟩
  · obtain ⟨-, ⟨⟩⟩ := Attempt.leads_pure.mp h₁₂

/-! ## Steps -/

/-- The step at a place is taken in a course: its step run is opened, what is done for it comes to this result, and its step run
is closed with that. -/
def Takes (g : Engine) (e : Opened) (path : StepPath) (task : Task) (r : Except Failure Unit) (t : Course) : Prop :=
  ∃ (before inner after : Course) (n n' : Binary64) (id : String) (a : Except Failure Unit) (vs vs' : Variables),
    t = before ++ (⟨.call (.createStepRun (e.startOf path task.kind n)) none, (.ok id : Except Failure String)⟩ :: inner ++
      [⟨.now, n'⟩, ⟨.call (.updateStepRun e.actor.tenant id (.ofResult r n n')) none, a⟩]) ++ after ∧
    (g.handle e path task).Leads vs inner r vs'

theorem Takes.failure (hQ : g.registry.Covers Q) {path : StepPath} {task : Task} (h : g.Takes e path task (.error f) t)
    (ht : t.Meets Q) : Q f := by
  obtain ⟨before, inner, after, n, n', id, a, vs, vs', rfl, hhandle⟩ := h
  have hstep := (Course.meets_append.mp (Course.meets_append.mp ht).1).2
  exact handle_failsBy hQ path task _ _ _ _ hhandle (Course.meets_append.mp (Course.meets_cons.mp hstep).2).1

/-- **What is loaded can be done**, in all surroundings. If an engine lacks nothing, all lookups for a task succeed. If its
collaborators report no rejection, no step that is taken in a run fails by one, at whatever place and with whatever variables,
and the run of a workflow that is loaded does not either. -/
theorem loaded_run_is_not_rejected (g : Engine) (o : Order) (s : Surroundings (Request Call) (Request.Reply Call.Answer))
    (hg : g.registry.IsComplete)
    (hstored : ∀ past stored, (s past (.call (.getWorkflow o.actor.tenant o.workflow) none) :
      Except Failure (Option StoredWorkflow)) = .ok (some stored) → ∃ w, Workflow.load g.loopLimit stored = .ok w)
    (hs : ∀ past op f, Exchange.failure? ⟨op, s past op⟩ = some f → f.isRejection = false) :
    (∀ task : Task, task.IsServed g.registry) ∧
    (∀ e path task f, g.Takes e path task (.error f) ((g.run o).run.under s).1 → f.isRejection = false) ∧
    ∀ f, ((g.run o).run.under s).2 = .error f → f.isRejection = false := by
  have hanswer := fun x => Program.exists_reply_of_mem_under (s := s) (p := (g.run o).run) (x := x)
  have hmeets : Course.Meets (fun f => f.isRejection = false) ((g.run o).run.under s).1 := by
    intro x hx f hf
    obtain ⟨past, hpast⟩ := hanswer x hx
    obtain ⟨v, -, hv⟩ | hf := Exchange.met?_eq_some hf
    · obtain ⟨reason, rfl⟩ | rfl := TokenView.check_eq_error hv <;> rfl
    · exact hs past x.op f (hpast ▸ hf)
  refine ⟨hg.serves, fun e path task f htakes => htakes.failure hg.covers hmeets, fun f hf => ?_⟩
  have hleads := Program.leads_under s (g.run o).run
  rw [hf] at hleads
  rcases run_failure hg.covers (fun _ => rfl) hleads hmeets with h | ⟨stored, hmem, hload⟩
  · exact h
  · obtain ⟨past, hpast⟩ := hanswer _ hmem
    obtain ⟨w, hw⟩ := hstored past stored hpast.symm
    rw [hw] at hload
    cases hload

end Engine

/-! ## Mail from a loop -/

namespace Posting

/-- A loaded workflow whose email cannot be sent fails by what its transport reports, and by no rejection. -/
theorem lost_is_not_rejected :
    (∃ w, Workflow.load (.int 100) stored = .ok w) ∧ (∀ task : Task, task.IsServed {}) ∧ isLost posted.2 ∧
      ∃ f, posted.2 = .error f ∧ f.isRejection = false := by
  have hcomplete : (({} : Engine).registry).IsComplete := ⟨fun kind => by cases kind <;> decide, rfl,
    fun table => by cases table <;> decide, rfl⟩
  have hload : ∀ (past : Course) (stored' : StoredWorkflow),
      (lost past (.call (.getWorkflow "tenant" "workflow") none) : Except Failure (Option StoredWorkflow)) =
        .ok (some stored') → ∃ w, Workflow.load (.int 100) stored' = .ok w := by
    rintro past stored' ⟨⟩
    exact ⟨_, load_stored _⟩
  have hreports : ∀ (past : Course) (q : Request Call) (f : Failure), Exchange.failure? ⟨q, lost past q⟩ = some f →
      f.isRejection = false := by
    intro past q f hf
    rw [failure?_lost hf]
    decide
  obtain ⟨hserved, -, hresult⟩ :=
    Engine.loaded_run_is_not_rejected {} Mailing.order lost hcomplete hload hreports
  have hposted := eq_of_isLost isLost_posted
  exact ⟨⟨_, load_stored _⟩, hserved, isLost_posted, _, hposted, hresult _ hposted⟩

end Posting

end Runbook
