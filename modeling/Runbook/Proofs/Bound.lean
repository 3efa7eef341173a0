import Mathlib.Algebra.GroupWithZero.Nat
import Runbook.Proofs.Dispatch
import Runbook.Proofs.Tour

/-!
# How long a run can be

A loop fixes the items that it goes over before its first pass, and takes no more of them than its limit. So what a workflow can
come to is known when it is loaded: whatever its steps set the variables to and whatever they are answered, a run opens no more
step runs than the bound of its steps, and makes a bounded number of calls before it closes its execution.

* `Step.bound`, `Step.boundAll`: the number of step runs that a step, or a list of them, can open at most.
* `Run.CallsAtMost`: a bound on the calls of a part of a run.
* `Walk.length_visits_le`, `Walk.length_calls_le`: the step runs and the calls of a walk.
* `Engine.leads_loop`: the passes of a loop.
* **`Engine.runs_are_bounded`**: the bounds of a whole run, and its closing.
-/

namespace Runbook

/-! ## Bounds of steps -/

mutual

/-- The number of step runs that a step can open at most. -/
def Step.bound : Step → Nat
  | .mk _ task _ _ => task.bound

/-- The number of step runs that a step can open at most if it does this: its own, and in a loop those of all passes. -/
def Task.bound : Task → Nat
  | .loop _ limit body => 1 + limit * Step.boundAll body
  | .condition .. | .action _ | .delay _ | .webhook _ => 1

/-- The number of step runs that the steps of a list can open at most. -/
def Step.boundAll : List Step → Nat
  | [] => 0
  | s :: rest => s.bound + Step.boundAll rest

end

theorem Step.bound_eq (s : Step) : s.bound = s.task.bound := by
  cases s
  rfl

theorem Step.boundAll_eq_sum (steps : List Step) : Step.boundAll steps = (steps.map Step.bound).sum := by
  induction steps with
  | nil => rfl
  | cons s rest ih => rw [List.map_cons, List.sum_cons, ← ih, boundAll]

theorem Task.one_le_bound (task : Task) : 1 ≤ task.bound := by
  cases task <;> simp [Task.bound]

/-! ## Calls of tasks without steps -/

/-- Makes so many calls at most. -/
def Run.CallsAtMost {α : Type} (n : Nat) (m : Run α) : Prop :=
  ∀ vs t r vs', m.Leads vs t r vs' → (Course.calls t).length ≤ n

namespace Run.CallsAtMost

variable {α β : Type} {n k : Nat}

theorem bind {m : Run α} {f : α → Run β} (hm : m.CallsAtMost n) (hf : ∀ x, (f x).CallsAtMost k) :
    (m >>= f).CallsAtMost (n + k) := by
  intro vs t r vs' h
  obtain ⟨e, h, -⟩ | ⟨x, vs₁, t₁, t₂, h₁, h₂, rfl⟩ := Run.leads_bind.mp h
  · have hfirst := hm _ _ _ _ h
    omega
  · have hfirst := hm _ _ _ _ h₁
    have hrest := hf x _ _ _ _ h₂
    rw [Course.calls_append, List.length_append]
    omega

theorem mono {m : Run α} (hm : m.CallsAtMost n) (h : n ≤ k) : m.CallsAtMost k :=
  fun vs t r vs' hleads => Nat.le_trans (hm vs t r vs' hleads) h

theorem liftExcept {x : Except Failure α} : (liftM x : Run α).CallsAtMost 0 := by
  intro vs t r vs' h
  obtain ⟨rfl, -, -⟩ := Run.leads_liftExcept.mp h
  exact Nat.le_refl _

theorem now : Run.now.CallsAtMost 0 := by
  intro vs t r vs' h
  obtain ⟨n, rfl, -, -⟩ := Run.leads_now.mp h
  exact Nat.le_refl 0

theorem call (c : Call) : (Run.call c).CallsAtMost 1 := by
  intro vs t r vs' h
  obtain ⟨rfl, -⟩ := Run.leads_call.mp h
  exact Nat.le_refl 1

theorem guarded (c : Call) : (Run.guarded c).CallsAtMost 1 := by
  intro vs t r vs' h
  obtain ⟨v, ⟨f, -, rfl, -⟩ | ⟨-, ⟨f, rfl, -⟩ | ⟨a, v', rfl, -⟩⟩⟩ := Token.leads_guard (Run.leads_attempt.mp h).1
  · exact Nat.zero_le _
  · exact Nat.le_refl _
  · exact Nat.le_refl _

end Run.CallsAtMost

theorem Action.perform_callsAtMost (a : Action) (registry : Registry) (sender : String) (actor : Actor) :
    (a.perform registry sender actor).CallsAtMost 2 := by
  have hone (c : Call) : (Run.guarded c).CallsAtMost 2 := Run.CallsAtMost.mono (.guarded c) (Nat.le_succ 1)
  cases a with
  | sendEmail => exact hone _
  | createRecord table data =>
    have hinsert (id : String) : (do
        let now ← Run.now
        Run.guarded (.insert table actor.tenant (Action.newRecord actor id now data)) : Run Unit).CallsAtMost (0 + 1) :=
      .bind .now fun _ => .guarded _
    exact .bind (n := 0) (k := 2) .liftExcept fun _ => .bind (n := 1) (k := 1) (.call _) hinsert
  | updateRecord table record data =>
    refine .bind (n := 0) (k := 2) .liftExcept fun _ => .bind (n := 0) (k := 2) .now fun _ => ?_
    exact .bind (n := 2) (k := 0) (hone _) fun _ => .liftExcept
  | sendNotification => exact hone _

theorem Webhook.run_callsAtMost (options : WebhookOptions) (w : Webhook) : (w.run options).CallsAtMost 2 := by
  rw [run_eq]
  refine .bind (n := 0) (k := 2) .liftExcept fun _ => .bind (n := 0) (k := 2) .liftExcept fun content => ?_
  intro vs t r vs' h
  obtain ⟨-, v, request, t', x, a, rfl, hguard, -⟩ := leads_exchange h
  have hcall := Run.CallsAtMost.guarded (.http request) vs t' x vs (Run.leads_attempt.mpr ⟨hguard, rfl⟩)
  rw [Course.calls_append, Course.calls_token, List.length_append]
  exact Nat.add_le_add_right hcall 1

namespace Engine

variable {g : Engine} {o : Order} {e : Opened} {part : Part} {path : StepPath} {vs vs' : Variables} {t : Course}
  {r : Except Failure Unit}

theorem length_calls_of_plain {task : Task} (hp : task.isPlain) (h : (g.execute e path task).Leads vs t r vs') :
    t.calls.length ≤ 2 := by
  match task with
  | .condition .. =>
    rw [(leads_compare h).1]
    exact Nat.zero_le _
  | .action a =>
    have hperform : (g.execute e path (.action a)).CallsAtMost (0 + 2) :=
      .bind .liftExcept fun _ => a.perform_callsAtMost _ _ _
    exact hperform _ _ _ _ h
  | .delay milliseconds =>
    have hnone : t.calls = [] := List.eq_nil_iff_forall_not_mem.mpr fun m hm => by
      cases (delay_tame milliseconds).calls h m hm
    rw [hnone]
    exact Nat.zero_le _
  | .webhook w =>
    obtain ⟨f, hw, -⟩ | ⟨v, hw, -, -⟩ := leads_webhook h
    · exact w.run_callsAtMost _ _ _ _ _ hw
    · exact w.run_callsAtMost _ _ _ _ _ hw

/-! ## Walks -/

/-- The number of step runs that a part of a walk can open at most. -/
def Part.bound : Part → Nat
  | .steps _ list => Step.boundAll list
  | .step _ task => task.bound
  | .handler _ task => task.bound - 1
  | .passes _ body _ items => items.length * Step.boundAll body

/-- **A walk opens no more step runs than its bound**, whatever the variables are. -/
theorem Walk.length_visits_le (h : Walk g e part vs t r vs') : t.visits.length ≤ part.bound := by
  induction h with
  | finished => exact Nat.zero_le _
  | stopped => exact Nat.zero_le _
  | @fails place s rest vs vs' v t f _ _ ih =>
    have hs := s.bound_eq
    show (Course.visits t).length ≤ Step.boundAll (s :: rest)
    simp only [Part.bound] at ih
    simp only [Step.boundAll]
    omega
  | @goesOn place s rest vs vs₁ vs' v t t' r _ _ _ ih ih' =>
    have hs := s.bound_eq
    show (Course.visits (t ++ t')).length ≤ Step.boundAll (s :: rest)
    simp only [Part.bound] at ih ih'
    simp only [Course.visits_append, List.length_append, Step.boundAll]
    omega
  | @refused path task vs n f => exact task.one_le_bound
  | @recorded path task vs vs' n n' id t r a _ _ ih =>
    -- the step's own run, and those that its handler opens
    have hpos := task.one_le_bound
    have hvisits : Course.visits (⟨.now, n⟩ :: ⟨.call (.createStepRun (e.startOf path task.kind n)) none,
        (.ok id : Except Failure String)⟩ :: t ++
          [⟨.now, n'⟩, ⟨.call (.updateStepRun e.actor.tenant id (.ofResult r n n')) none, a⟩]) = path :: t.visits := by
      rw [Course.visits_append]
      exact List.append_nil _
    rw [hvisits, List.length_cons]
    simp only [Part.bound] at ih ⊢
    omega
  | unknown => exact Nat.zero_le _
  | plain hp h =>
    rw [visits_of_plain hp h]
    exact Nat.zero_le _
  | unlisted => exact Nat.zero_le _
  | @looped path collection limit body vs vs' items t r _ _ ih =>
    -- a loop takes the first items of its list only
    have htake : (items.take limit).length ≤ limit := List.length_take_le ..
    have hpasses := Nat.mul_le_mul_right (Step.boundAll body) htake
    simp only [Part.bound, Task.bound] at ih ⊢
    omega
  | ended => exact Nat.zero_le _
  | @broken path body i x rest vs vs' t f _ ih =>
    simp only [Part.bound, List.length_cons, Nat.succ_mul] at ih ⊢
    omega
  | @again path body i x rest vs vs₁ vs' t t' r _ _ ih ih' =>
    rw [Course.visits_append, List.length_append]
    simp only [Part.bound, List.length_cons, Nat.succ_mul] at ih ih' ⊢
    omega

/-- The calls that a part of a walk can make besides those for its step runs: what a task without steps asks for. -/
def Part.errands : Part → Nat
  | .handler .. => 2
  | _ => 0

/-- A walk makes four calls for each of its step runs at most: two that record it, and two that its task asks for. -/
theorem Walk.length_calls_le (h : Walk g e part vs t r vs') : t.calls.length ≤ 4 * t.visits.length + part.errands := by
  induction h with
  | finished => exact Nat.zero_le _
  | stopped => exact Nat.zero_le _
  | fails _ _ ih => exact ih
  | @goesOn place s rest vs vs₁ vs' v t t' r _ _ _ ih ih' =>
    show (Course.calls (t ++ t')).length ≤ 4 * (Course.visits (t ++ t')).length + 0
    rw [Course.calls_append, Course.visits_append, List.length_append, List.length_append]
    simp only [Part.errands] at ih ih'
    omega
  | refused => exact Nat.le_of_ble_eq_true rfl
  | @recorded path task vs vs' n n' id t r a _ _ ih =>
    show (_ :: Course.calls (t ++ _)).length ≤ 4 * (_ :: Course.visits (t ++ _)).length + 0
    rw [Course.calls_append, Course.visits_append]
    simp only [List.length_cons, List.length_append, Part.errands] at ih ⊢
    have hclose : (Course.calls [⟨.now, n'⟩,
      ⟨.call (.updateStepRun e.actor.tenant id (.ofResult r n n')) none, a⟩]).length = 1 := rfl
    omega
  | unknown => exact Nat.zero_le _
  | plain hp h =>
    have hcalls := length_calls_of_plain hp h
    exact Nat.le_trans hcalls (Nat.le_add_left ..)
  | unlisted => exact Nat.zero_le _
  | looped _ _ ih => exact Nat.le_trans ih (Nat.le_add_right ..)
  | ended => exact Nat.zero_le _
  | broken _ ih => exact ih
  | again _ _ ih ih' =>
    rw [Course.calls_append, Course.visits_append, List.length_append, List.length_append]
    simp only [Part.errands] at ih ih' ⊢
    omega

/-! ## Passes -/

/-- Courses of passes over these items: they begin with the index and the item of their places in the list, and there is one for
each of the items at most. -/
def ArePasses (body : Nat → Run Unit) (index : Nat) (items : List Value) (courses : List Course) : Prop :=
  courses.length ≤ items.length ∧ ∀ k x, courses[k]? = some x → ∃ item vs r vs', items[k]? = some item ∧
    (body (index + k)).Leads (Variables.forPass vs (index + k) item) x r vs'

theorem ArePasses.cons {body : Nat → Run Unit} {index : Nat} {item : Value} {items : List Value} {x : Course}
    {courses : List Course} (hx : (body index).Leads (vs.forPass index item) x r vs')
    (h : ArePasses body (index + 1) items courses) : ArePasses body index (item :: items) (x :: courses) := by
  refine ⟨Nat.succ_le_succ h.1, fun k y hy => ?_⟩
  cases k with
  | zero =>
    cases hy
    exact ⟨item, vs, r, vs', rfl, hx⟩
  | succ k =>
    have hk := h.2 k y hy
    rw [Nat.add_assoc, Nat.add_comm 1 k] at hk
    exact hk

theorem leads_passes {body : Nat → Run Unit} {index : Nat} {items : List Value}
    (h : (passes body index items).Leads vs t r vs') : ∃ courses, ArePasses body index items courses ∧ t = courses.flatten := by
  induction items generalizing index vs t with
  | nil =>
    obtain ⟨rfl, -, -⟩ := Run.leads_pure.mp h
    exact ⟨[], ⟨Nat.le_refl 0, nofun⟩, rfl⟩
  | cons item items ih =>
    obtain ⟨f, h₁, rfl⟩ | ⟨⟨⟩, vs₁, t₁, t₂, h₁, h₂, rfl⟩ := Run.leads_bind.mp h
    · obtain ⟨-, ⟨⟩, -⟩ := Run.leads_setVariable.mp h₁
    obtain ⟨rfl, -, rfl⟩ := Run.leads_setVariable.mp h₁
    obtain ⟨f, h₃, rfl⟩ | ⟨⟨⟩, vs₂, t₃, t₄, h₃, h₄, rfl⟩ := Run.leads_bind.mp h₂
    · obtain ⟨-, ⟨⟩, -⟩ := Run.leads_setVariable.mp h₃
    obtain ⟨rfl, -, rfl⟩ := Run.leads_setVariable.mp h₃
    obtain ⟨f, h₅, rfl⟩ | ⟨⟨⟩, vs₃, t₅, t₆, h₅, h₆, rfl⟩ := Run.leads_bind.mp h₄
    · exact ⟨[t₄], .cons h₅ ⟨Nat.zero_le _, nofun⟩, by simp⟩
    · obtain ⟨courses, hcourses, rfl⟩ := ih h₆
      exact ⟨t₅ :: courses, .cons h₅ hcourses, rfl⟩

/-- **The passes of a loop** go over the first items that it finds at its beginning, as many as its limit allows, whatever becomes
of the variable that it found them in. A loop that finds no items makes none. -/
theorem leads_loop {collection : String} {limit : Nat} {body : List Step}
    (h : (g.execute e path (.loop collection limit body)).Leads vs t r vs') :
    ∃ items courses, (items = [] ∨ foundItems vs collection = .ok items) ∧
      ArePasses (fun i => g.runAll e (passPlace path i) body) 0 (items.take limit) courses ∧ courses.length ≤ limit ∧
      t = courses.flatten := by
  obtain ⟨f, h₁, rfl⟩ | ⟨v, vs₁, t₁, t₂, h₁, h₂, rfl⟩ := Run.leads_bind.mp h
  · obtain ⟨rfl, -, -⟩ := Run.leads_lookup.mp h₁
    exact ⟨[], [], .inl rfl, ⟨Nat.zero_le _, nofun⟩, Nat.zero_le _, rfl⟩
  obtain ⟨rfl, hv, rfl⟩ := Run.leads_lookup.mp h₁
  obtain ⟨f, h₃, rfl⟩ | ⟨items, vs₂, t₃, t₄, h₃, h₄, rfl⟩ := Run.leads_bind.mp h₂
  · obtain ⟨rfl, -, -⟩ := Run.leads_liftExcept.mp h₃
    exact ⟨[], [], .inl rfl, ⟨Nat.zero_le _, nofun⟩, Nat.zero_le _, rfl⟩
  obtain ⟨rfl, hitems, rfl⟩ := Run.leads_liftExcept.mp h₃
  obtain ⟨courses, hcourses, rfl⟩ := leads_passes h₄
  refine ⟨items, courses, .inr ?_, hcourses, Nat.le_trans hcourses.1 (List.length_take_le ..), rfl⟩
  rw [foundItems, ← hv]
  exact hitems.symm

/-! ## Whole runs -/

theorem visits_of_isVain (h : ∀ m ∈ t.calls, m.isVain) : t.visits = [] :=
  Course.visits_of_isStepRun fun m hm => isStepRun_of_isVain (h m hm)

theorem Closing.length_calls_le {r' : Except Failure Unit} (h : Closing e r vs t r') : t.calls.length ≤ 1 := by
  cases h with
  | unrecorded => exact Nat.zero_le _
  | recorded => exact Nat.le_refl 1

theorem Vain.length_calls_le (h : Vain o t) : t.calls.length ≤ 2 := by
  cases h with
  | unfound | unbegun => exact Nat.le_succ 1
  | refused => exact Nat.le_refl 2

/-- The workflow that a run finds is the one that it takes the steps of. -/
theorem stored_of_mem {stored stored' : StoredWorkflow} {n : Binary64} {start : ExecutionStart} {id : String} {t' : Course}
    {r' : Except Failure Unit} (hbody : (g.body e stored).Leads vs t r vs') (hclosing : Closing e r vs' t' r')
    (h : ⟨.getWorkflow o.actor.tenant o.workflow, .ok (some stored')⟩ ∈
      Course.calls (g.opening o stored n start id ++ (t ++ t') ++ [⟨.delist id, ()⟩])) : stored' = stored := by
  rw [Course.calls_append, Course.calls_append, Course.calls_append, calls_opening] at h
  rcases List.mem_append.mp h with h | h
  · rcases List.mem_append.mp h with h | h
    · rcases List.mem_cons.mp h with h | h
      · cases h
        rfl
      · cases List.mem_singleton.mp h
    · rcases List.mem_append.mp h with h | h
      · rcases body_calls hbody _ h with h | h <;> cases h
      · cases hclosing with
        | unrecorded => cases h
        | recorded => cases List.mem_singleton.mp h
  · cases h

/-- **Runs are bounded**, in all surroundings. The run of a loaded workflow opens no more step runs than the bound of its steps,
and makes no more than four calls for each of them besides the three for its execution. Each loop makes no more passes than its
limit, over items that it found before the first. At the end the execution is closed by one call, unless the variables have no
recorded form then; they have one if those that the run began with are recordable. -/
theorem runs_are_bounded (g : Engine) (o : Order) (s : Surroundings (Request Call) (Request.Reply Call.Answer)) :
    let t := ((g.run o).run.under s).1
    (∀ stored w, ⟨.getWorkflow o.actor.tenant o.workflow, .ok (some stored)⟩ ∈ Course.calls t →
      Workflow.load g.loopLimit stored = .ok w → (Course.visits t).length ≤ (w.steps.map Step.bound).sum ∧
        (Course.calls t).length ≤ 4 * (w.steps.map Step.bound).sum + 3) ∧
    (∀ (e : Opened) (path : StepPath) (collection : String) (limit : Nat) (body : List Step) (vs : Variables) (x : Course)
        (r : Except Failure Unit) (vs' : Variables), (g.execute e path (.loop collection limit body)).Leads vs x r vs' →
      ∃ items courses, (items = [] ∨ foundItems vs collection = .ok items) ∧
        ArePasses (fun i => g.runAll e (passPlace path i) body) 0 (items.take limit) courses ∧ courses.length ≤ limit ∧
        x = courses.flatten) ∧
    ∀ start id, ⟨.createExecution start, .ok id⟩ ∈ Course.calls t → ∃ stored n vs inner r final closing,
      startVariables stored o = .ok vs ∧ (g.body ⟨id, o.actor, Clock.stamp n⟩ stored).Leads vs inner r final ∧
      t = g.opening o stored n start id ++ (inner ++ closing) ++ [⟨.delist id, ()⟩] ∧
      (∀ w, final.recorded = .ok w → ∃ last answer,
        Course.calls closing = [⟨.updateExecution o.actor.tenant id last, answer⟩]) ∧
      (∀ f, final.recorded = .error f → Course.calls closing = []) ∧
      (vs.AreRecordable → ∃ w, final.recorded = .ok w) := by
  have hleads := Program.leads_under s (g.run o).run
  have hj := journey_of_leads hleads
  generalize (g.run o).run.under s = p at hleads hj ⊢
  obtain ⟨t, result⟩ := p
  dsimp only at hleads hj ⊢
  refine ⟨?_, fun _ _ _ _ _ _ _ _ _ => leads_loop, ?_⟩
  · intro stored w hstored hw
    cases hj with
    | unopened hvain =>
      have hcalls := (vain_of_leads hleads hvain).length_calls_le
      rw [visits_of_isVain hvain]
      exact ⟨Nat.zero_le _, by omega⟩
    | @opened stored' vs final n start id body closing r r' hvs hbody hclosing =>
      obtain rfl := stored_of_mem hbody hclosing hstored
      obtain ⟨f, hf, -⟩ | ⟨w', hw', hwalk⟩ := leads_body hbody
      · cases hf.symm.trans hw
      cases hw'.symm.trans hw
      have hwalk := walk_of_leads _ _ _ _ hwalk
      have hvisits := hwalk.length_visits_le
      have hcalls := hwalk.length_calls_le
      have hclose := hclosing.length_calls_le
      simp only [Part.bound, Part.errands, Step.boundAll_eq_sum] at hvisits hcalls
      rw [visits_opened hclosing, Course.calls_append, Course.calls_append, Course.calls_append, calls_opening]
      simp only [List.length_append, List.length_cons, List.length_nil, Course.calls_delist, Course.calls_nil]
      exact ⟨hvisits, by omega⟩
  · intro start id hcreated
    cases hj with
    | unopened hvain => cases hvain _ hcreated
    | @opened stored vs final n start' id' body closing r r' hvs hbody hclosing =>
      obtain ⟨rfl, rfl⟩ := (created_iff (inner_ne_createExecution hbody hclosing)).mp hcreated
      refine ⟨stored, n, vs, body, r, final, closing, hvs, hbody, rfl, ?_, ?_, fun h => ?_⟩
      · intro w hw
        cases hclosing with
        | unrecorded hf => cases hf.symm.trans hw
        | recorded => exact ⟨_, _, rfl⟩
      · intro f hf
        cases hclosing with
        | unrecorded => rfl
        | recorded hw => cases hf.symm.trans hw
      · exact (body_areRecordable hbody h).recorded_isOk

end Engine

namespace Posting

/-- The loop that loses its mail opens no more step runs than its own and those of two passes, and its execution is closed. -/
theorem posted_is_bounded :
    posted.1.visits.length ≤ 3 ∧ (Course.calls posted.1).length ≤ 15 ∧
      ∃ last answer, ⟨.updateExecution "tenant" "execution" last, answer⟩ ∈ Course.calls posted.1 := by
  obtain ⟨hbounds, -, hclosing⟩ := Engine.runs_are_bounded {} Mailing.order lost
  obtain ⟨hvisits, hcalls⟩ := hbounds stored _ found_posted (load_stored _)
  refine ⟨hvisits, hcalls, ?_⟩
  obtain ⟨stored', n, vs, inner, r, final, closing, hvs, -, ht, hclosed, -, hrecordable⟩ := hclosing start "execution" created_posted
  replace ht : posted.1 = _ := ht
  obtain rfl : stored' = stored := eq_stored (ht.trans (by rw [List.append_assoc, List.append_assoc]))
  obtain rfl : [(.str "items", .list [.int 1])] = vs := Except.ok.inj hvs
  obtain ⟨w, hw⟩ := hrecordable (List.forall_mem_singleton.mpr rfl)
  obtain ⟨last, answer, hlast⟩ := hclosed w hw
  have hmem : ⟨.updateExecution Mailing.order.actor.tenant "execution" last, answer⟩ ∈ Course.calls posted.1 := by
    rw [ht, Course.calls_append, Course.calls_append, Course.calls_append, hlast]
    exact List.mem_append_left _ (List.mem_append_right _ (List.mem_append_right _ List.mem_cons_self))
  exact ⟨last, answer, hmem⟩

end Posting

end Runbook
