import Runbook.Proofs.Walk

/-!
# Whole runs

A run comes to nothing before its execution is open, or it opens one, takes the steps of the workflow and closes it. It closes
it with the outcome of the steps, unless its variables have no recorded form at the end.

* `Journey`: the courses of a run and their results; `Vain`: the courses of a run that opens no execution.
* `leads_run`: a run from its beginning to its end.
* **`journey_of_leads`**: every course of a run is a journey.
-/

namespace Runbook

/-- A call before the execution of a run is open. -/
def Made.isVain : Made → Bool
  | ⟨.getWorkflow .., _⟩ => true
  | ⟨.createExecution _, r⟩ => match (r : Except Failure String) with
    | .error _ => true
    | .ok _ => false
  | _ => false

/-- The record that opens the execution of an order with these variables. -/
structure Order.Starts (o : Order) (vs : Variables) (start : ExecutionStart) : Prop where
  tenant : start.tenant = o.actor.tenant
  input : (Value.dict o.input).recorded = .ok start.input
  initial : vs.recorded = .ok start.startVariables

/-- The record that closes an execution with a result and these variables. -/
def Opened.endOf (e : Opened) (r : Except Failure Unit) (reading : Binary64) (final : Value) : ExecutionEnd :=
  ⟨.ofResult r, Clock.stamp reading, Clock.elapsed e.startedAt (Clock.stamp reading), final⟩

namespace Engine

/-- The closing of an execution: what is left to do when its steps have come to a result, and what the run comes to. -/
inductive Closing (e : Opened) (r : Except Failure Unit) (final : Variables) : Course → Except Failure Unit → Prop where
  | unrecorded {n : Binary64} {f : Failure} : final.recorded = .error f → Closing e r final [⟨.now, n⟩] (.error f)
  | recorded {n : Binary64} {w : Value} {a : Except Failure Unit} : final.recorded = .ok w →
    Closing e r final [⟨.now, n⟩, ⟨.call (.updateExecution e.actor.tenant e.id (e.endOf r n w)) none, a⟩]
      (a.bind fun _ => r)

/-- The exchanges that open an execution. -/
def opening (g : Engine) (o : Order) (stored : StoredWorkflow) (n : Binary64) (start : ExecutionStart) (id : String) :
    Course := [
  ⟨.call (.getWorkflow o.actor.tenant o.workflow) none, (.ok (some stored) : Except Failure (Option StoredWorkflow))⟩,
  ⟨.now, n⟩, ⟨.call (.createExecution start) none, (.ok id : Except Failure String)⟩,
  ⟨.openToken g.timeout, ()⟩, ⟨.enlist id o.workflow o.actor.tenant, ()⟩]

theorem calls_opening {g : Engine} {o : Order} {stored : StoredWorkflow} {n : Binary64} {start : ExecutionStart} {id : String} :
    Course.calls (g.opening o stored n start id) =
      [⟨.getWorkflow o.actor.tenant o.workflow, .ok (some stored)⟩, ⟨.createExecution start, .ok id⟩] :=
  rfl

/-- The courses of a run and their results. -/
inductive Journey (g : Engine) (o : Order) : Course → Except Failure Execution → Prop where
  | unopened {t : Course} {f : Failure} : (∀ m ∈ t.calls, m.isVain) → Journey g o t (.error f)
  | opened {stored : StoredWorkflow} {vs final : Variables} {n : Binary64} {start : ExecutionStart} {id : String}
      {t t' : Course} {r r' : Except Failure Unit} :
    startVariables stored o = .ok vs → (g.body ⟨id, o.actor, Clock.stamp n⟩ stored).Leads vs t r final →
      Closing ⟨id, o.actor, Clock.stamp n⟩ r final t' r' →
      Journey g o (g.opening o stored n start id ++ (t ++ t') ++ [⟨.delist id, ()⟩])
        (r'.map fun _ => ⟨id, o.actor.user, o.input, final⟩)

variable {g : Engine} {o : Order} {e : Opened} {vs vs' : Variables} {t : Course}

theorem closing_of_leads {r r' : Except Failure Unit} (h : (close e (.ofResult r)).Leads vs t r' vs') :
    vs' = vs ∧ Closing e r vs t (r'.bind fun _ => r) := by
  obtain ⟨f, h₁, rfl⟩ | ⟨at_, vs₁, t₁, t₂, h₁, h₂, rfl⟩ := Run.leads_bind.mp h
  · obtain ⟨n, -, ⟨⟩, -⟩ := Run.leads_now.mp h₁
  obtain ⟨n, rfl, ⟨⟩, rfl⟩ := Run.leads_now.mp h₁
  obtain ⟨f, h₃, rfl⟩ | ⟨x, vs₂, t₃, t₄, h₃, h₄, rfl⟩ := Run.leads_bind.mp h₂
  · obtain ⟨-, ⟨⟩, -⟩ := Run.leads_current.mp h₃
  obtain ⟨rfl, ⟨⟩, rfl⟩ := Run.leads_current.mp h₃
  obtain ⟨f, h₅, rfl⟩ | ⟨w, vs₃, t₅, t₆, h₅, h₆, rfl⟩ := Run.leads_bind.mp h₄
  · obtain ⟨rfl, hw, rfl⟩ := Run.leads_liftExcept.mp h₅
    exact ⟨rfl, .unrecorded hw.symm⟩
  obtain ⟨rfl, hw, rfl⟩ := Run.leads_liftExcept.mp h₅
  obtain ⟨rfl, rfl⟩ := Run.leads_call.mp h₆
  exact ⟨rfl, .recorded hw.symm⟩

/-- The steps of an open execution come to a result, and then it is closed. -/
theorem leads_conduct {stored : StoredWorkflow} {r : Except Failure Unit} (h : (g.conduct e stored).Leads vs t r vs') :
    ∃ t₁ t₂ r₁, t = t₁ ++ t₂ ∧ (g.body e stored).Leads vs t₁ r₁ vs' ∧ Closing e r₁ vs' t₂ r := by
  obtain ⟨f, h₁, rfl⟩ | ⟨r₁, vs₁, t₁, t₂, h₁, h₂, rfl⟩ := Run.leads_bind.mp h
  · obtain ⟨_, ⟨⟩, -⟩ := Run.leads_observe.mp h₁
  obtain ⟨_, ⟨⟩, hbody⟩ := Run.leads_observe.mp h₁
  refine ⟨t₁, t₂, r₁, rfl, ?_⟩
  obtain ⟨f, h₃, rfl⟩ | ⟨⟨⟩, vs₂, t₃, t₄, h₃, h₄, rfl⟩ := Run.leads_bind.mp h₂
  · obtain ⟨rfl, hclosing⟩ := closing_of_leads h₃
    exact ⟨hbody, hclosing⟩
  · obtain ⟨rfl, hclosing⟩ := closing_of_leads h₃
    obtain ⟨rfl, rfl, rfl⟩ := Run.leads_liftExcept.mp h₄
    rw [List.append_nil]
    exact ⟨hbody, hclosing⟩

theorem leads_find {r : Except Failure StoredWorkflow} (h : (find o).run.Leads t r) :
    ∃ x : Except Failure (Option StoredWorkflow), t = [⟨.call (.getWorkflow o.actor.tenant o.workflow) none, x⟩] ∧
      ∀ stored, r = .ok stored → x = .ok (some stored) := by
  obtain ⟨f, h₁, rfl⟩ | ⟨x, t₁, t₂, h₁, h₂, rfl⟩ := Attempt.leads_bind.mp h
  · obtain rfl := Attempt.leads_call.mp h₁
    exact ⟨.error f, rfl, nofun⟩
  obtain rfl := Attempt.leads_call.mp h₁
  cases x with
  | none =>
    obtain ⟨rfl, rfl⟩ := (Attempt.leads_liftExcept (x := .error _)).mp h₂
    exact ⟨.ok none, rfl, nofun⟩
  | some stored =>
    obtain ⟨rfl, rfl⟩ := Attempt.leads_pure.mp h₂
    exact ⟨.ok (some stored), rfl, fun _ h => by rw [Except.ok.inj h]⟩

/-- The courses of a run that opens no execution. -/
inductive Vain (o : Order) : Course → Prop where
  | unfound {x : Except Failure (Option StoredWorkflow)} :
    Vain o [⟨.call (.getWorkflow o.actor.tenant o.workflow) none, x⟩]
  | unbegun {x : Except Failure (Option StoredWorkflow)} {n : Binary64} :
    Vain o [⟨.call (.getWorkflow o.actor.tenant o.workflow) none, x⟩, ⟨.now, n⟩]
  | refused {x : Except Failure (Option StoredWorkflow)} {n : Binary64} {vs : Variables} {start : ExecutionStart} {f : Failure} :
    o.Starts vs start → Vain o [⟨.call (.getWorkflow o.actor.tenant o.workflow) none, x⟩, ⟨.now, n⟩,
      ⟨.call (.createExecution start) none, (.error f : Except Failure String)⟩]

theorem Vain.isVain (h : Vain o t) : ∀ m ∈ t.calls, m.isVain := by
  cases h with
  | unfound | unbegun => exact List.forall_mem_singleton.mpr rfl
  | refused => exact List.forall_mem_cons.mpr ⟨rfl, List.forall_mem_singleton.mpr rfl⟩

theorem leads_openExecution {r : Except Failure Opened} (h : (g.openExecution o vs).run.Leads t r) :
    (∃ f, r = .error f ∧ ∃ n, t = [⟨.now, n⟩] ∨ ∃ start f', o.Starts vs start ∧
      t = [⟨.now, n⟩, ⟨.call (.createExecution start) none, (.error f' : Except Failure String)⟩]) ∨
    ∃ n start id, r = .ok ⟨id, o.actor, Clock.stamp n⟩ ∧ o.Starts vs start ∧
      t = [⟨.now, n⟩, ⟨.call (.createExecution start) none, (.ok id : Except Failure String)⟩,
        ⟨.openToken g.timeout, ()⟩, ⟨.enlist id o.workflow o.actor.tenant, ()⟩] := by
  obtain ⟨f, h₁, rfl⟩ | ⟨n, t₁, t₂, h₁, h₂, rfl⟩ := Attempt.leads_bind.mp h
  · obtain ⟨_, ⟨⟩, -⟩ := Attempt.leads_ask.mp h₁
  obtain ⟨_, ⟨⟩, rfl⟩ := Attempt.leads_ask.mp h₁
  obtain ⟨f, h₃, rfl⟩ | ⟨input, t₃, t₄, h₃, h₄, rfl⟩ := Attempt.leads_bind.mp h₂
  · obtain ⟨rfl, -⟩ := Attempt.leads_liftExcept.mp h₃
    exact .inl ⟨f, rfl, n, .inl rfl⟩
  obtain ⟨rfl, hinput⟩ := Attempt.leads_liftExcept.mp h₃
  obtain ⟨f, h₅, rfl⟩ | ⟨snapshot, t₅, t₆, h₅, h₆, rfl⟩ := Attempt.leads_bind.mp h₄
  · obtain ⟨rfl, -⟩ := Attempt.leads_liftExcept.mp h₅
    exact .inl ⟨f, rfl, n, .inl rfl⟩
  obtain ⟨rfl, hsnapshot⟩ := Attempt.leads_liftExcept.mp h₅
  obtain ⟨f, h₇, rfl⟩ | ⟨id, t₇, t₈, h₇, h₈, rfl⟩ := Attempt.leads_bind.mp h₆
  · obtain rfl := Attempt.leads_call.mp h₇
    exact .inl ⟨f, rfl, n, .inr ⟨_, f, ⟨rfl, hinput.symm, hsnapshot.symm⟩, rfl⟩⟩
  obtain rfl := Attempt.leads_call.mp h₇
  -- Once the execution is created nothing fails any more.
  obtain ⟨f, h₉, rfl⟩ | ⟨⟨⟩, t₉, t₁₀, h₉, h₁₀, rfl⟩ := Attempt.leads_bind.mp h₈
  · obtain ⟨_, ⟨⟩, -⟩ := Attempt.leads_ask.mp h₉
  obtain ⟨_, -, rfl⟩ := Attempt.leads_ask.mp h₉
  obtain ⟨f, h₁₁, rfl⟩ | ⟨⟨⟩, t₁₁, t₁₂, h₁₁, h₁₂, rfl⟩ := Attempt.leads_bind.mp h₁₀
  · obtain ⟨_, ⟨⟩, -⟩ := Attempt.leads_ask.mp h₁₁
  obtain ⟨_, -, rfl⟩ := Attempt.leads_ask.mp h₁₁
  obtain ⟨rfl, rfl⟩ := Attempt.leads_pure.mp h₁₂
  exact .inr ⟨n, _, id, rfl, ⟨rfl, hinput.symm, hsnapshot.symm⟩, rfl⟩

/-- **A run** opens no execution and fails, or opens one, takes the steps and closes it. -/
theorem leads_run {result : Except Failure Execution} (h : (g.run o).run.Leads t result) :
    (Vain o t ∧ ∃ f, result = .error f) ∨
    ∃ (stored : StoredWorkflow) (vs final : Variables) (n : Binary64) (start : ExecutionStart) (id : String) (t' : Course)
      (r : Except Failure Unit), startVariables stored o = .ok vs ∧ o.Starts vs start ∧
        (g.conduct ⟨id, o.actor, Clock.stamp n⟩ stored).Leads vs t' r final ∧
        t = g.opening o stored n start id ++ t' ++ [⟨.delist id, ()⟩] ∧
        result = r.map fun _ => ⟨id, o.actor.user, o.input, final⟩ := by
  obtain ⟨f, h₁, rfl⟩ | ⟨stored, t₁, t₂, h₁, h₂, rfl⟩ := Attempt.leads_bind.mp h
  · obtain ⟨x, rfl, -⟩ := leads_find h₁
    exact .inl ⟨.unfound, f, rfl⟩
  obtain ⟨x, rfl, hx⟩ := leads_find h₁
  obtain rfl := hx stored rfl
  obtain ⟨f, h₃, rfl⟩ | ⟨vs, t₃, t₄, h₃, h₄, rfl⟩ := Attempt.leads_bind.mp h₂
  · obtain ⟨rfl, -⟩ := Attempt.leads_liftExcept.mp h₃
    exact .inl ⟨.unfound, f, rfl⟩
  obtain ⟨rfl, hvs⟩ := Attempt.leads_liftExcept.mp h₃
  obtain ⟨f, h₅, rfl⟩ | ⟨e, t₅, t₆, h₅, h₆, rfl⟩ := Attempt.leads_bind.mp h₄
  · obtain ⟨f', -, n, rfl | ⟨start, f'', hstart, rfl⟩⟩ | ⟨_, _, _, ⟨⟩, -⟩ := leads_openExecution h₅
    · exact .inl ⟨.unbegun, f, rfl⟩
    · exact .inl ⟨.refused hstart, f, rfl⟩
  obtain ⟨_, ⟨⟩, -⟩ | ⟨n, start, id, he, hstart, rfl⟩ := leads_openExecution h₅
  cases he
  obtain ⟨f, h₇, rfl⟩ | ⟨⟨r, final⟩, t₇, t₈, h₇, h₈, rfl⟩ := Attempt.leads_bind.mp h₆
  · obtain ⟨_, ⟨⟩, -⟩ := Attempt.leads_lift.mp h₇
  obtain ⟨_, ⟨⟩, hconduct⟩ := Attempt.leads_lift.mp h₇
  obtain ⟨f, h₉, rfl⟩ | ⟨⟨⟩, t₉, t₁₀, h₉, h₁₀, rfl⟩ := Attempt.leads_bind.mp h₈
  · obtain ⟨_, ⟨⟩, -⟩ := Attempt.leads_ask.mp h₉
  obtain ⟨_, -, rfl⟩ := Attempt.leads_ask.mp h₉
  refine .inr ⟨stored, vs, final, n, start, id, t₇, r, hvs.symm, hstart, hconduct, ?_⟩
  obtain ⟨f, h₁₁, rfl⟩ | ⟨⟨⟩, t₁₁, t₁₂, h₁₁, h₁₂, rfl⟩ := Attempt.leads_bind.mp h₁₀
  · obtain ⟨rfl, rfl⟩ := Attempt.leads_liftExcept.mp h₁₁
    exact ⟨rfl, rfl⟩
  · obtain ⟨rfl, rfl⟩ := Attempt.leads_liftExcept.mp h₁₁
    obtain ⟨rfl, rfl⟩ := Attempt.leads_pure.mp h₁₂
    exact ⟨rfl, rfl⟩

/-- **Every course of a run is a journey.** -/
theorem journey_of_leads {result : Except Failure Execution} (h : (g.run o).run.Leads t result) :
    Journey g o t result := by
  obtain ⟨hvain, f, rfl⟩ | ⟨stored, vs, final, n, start, id, t', r, hvs, -, hconduct, rfl, rfl⟩ := leads_run h
  · exact .unopened hvain.isVain
  · obtain ⟨body, closing, r', rfl, hbody, hclosing⟩ := leads_conduct hconduct
    exact .opened hvs hbody hclosing

/-- A run that creates no execution asks for nothing beyond it. -/
theorem vain_of_leads {result : Except Failure Execution} (h : (g.run o).run.Leads t result)
    (hvain : ∀ m ∈ t.calls, m.isVain) : Vain o t := by
  obtain ⟨h, -⟩ | ⟨stored, vs, final, n, start, id, t', r, -, -, -, rfl, -⟩ := leads_run h
  · exact h
  · cases hvain ⟨.createExecution start, .ok id⟩ (List.mem_cons_of_mem _ List.mem_cons_self)

end Engine

end Runbook
