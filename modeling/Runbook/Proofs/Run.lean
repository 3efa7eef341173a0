import Runbook.Engine.Call
import Runbook.Proofs.Course

/-!
# Courses of parts of a run

A part of a run begins with some variables, takes a course, and ends with a result and with the variables it leaves. One
lemma for each of the operations that parts are made of says which courses it can take.

* `Run.Leads`: the courses of a part of a run; **`Run.leads_bind`**: those of a sequence.
* `Token.leads_guard`: the courses of a call that is bounded by the token.
* `Course.calls`: the calls of a course, with their outcomes.
-/

namespace Runbook

/-- The requests of a run with their answers, in order. -/
abbrev Course := List (Exchange (Request Call) (Request.Reply Call.Answer))

/-! ## Calls -/

/-- A call and its outcome. -/
structure Made where
  call : Call
  outcome : Except Failure call.Answer

/-- The call that an exchange is. -/
def Exchange.made? : Exchange (Request Call) (Request.Reply Call.Answer) → Option Made
  | ⟨.call c _, r⟩ => some ⟨c, r⟩
  | _ => none

/-- The calls of a course, in order. -/
def Course.calls (t : Course) : List Made := t.filterMap Exchange.made?

namespace Course

@[simp] theorem calls_nil : calls [] = [] := rfl

@[simp] theorem calls_append (t t' : Course) : calls (t ++ t') = calls t ++ calls t' := List.filterMap_append

@[simp] theorem calls_token (v : TokenView) (t : Course) : calls (⟨.token, v⟩ :: t) = calls t := rfl

@[simp] theorem calls_delist (execution : String) (r : Unit) (t : Course) :
    calls (⟨.delist execution, r⟩ :: t) = calls t := rfl

theorem mem_calls {t : Course} {m : Made} : m ∈ calls t ↔ ∃ limit, ⟨.call m.call limit, m.outcome⟩ ∈ t := by
  rw [calls, List.mem_filterMap]
  constructor
  · rintro ⟨⟨op, r⟩, h, e⟩
    cases op <;> cases e
    exact ⟨_, h⟩
  · rintro ⟨limit, h⟩
    exact ⟨_, h, rfl⟩

end Course

/-! ## Attempts -/

section Attempts

variable {α β : Type} {t : Course}

theorem Attempt.leads_bind {a : Attempt Call Call.Answer α} {f : α → Attempt Call Call.Answer β}
    {r : Except Failure β} :
    (a >>= f).run.Leads t r ↔ (∃ e, a.run.Leads t (.error e) ∧ r = .error e) ∨
      ∃ x t₁ t₂, a.run.Leads t₁ (.ok x) ∧ (f x).run.Leads t₂ r ∧ t = t₁ ++ t₂ :=
  Program.leads_run_bind

theorem Attempt.leads_pure {x : α} {r : Except Failure α} :
    (pure x : Attempt Call Call.Answer α).run.Leads t r ↔ t = [] ∧ r = .ok x :=
  Program.leads_done

theorem Attempt.leads_liftExcept {x r : Except Failure α} :
    (liftM x : Attempt Call Call.Answer α).run.Leads t r ↔ t = [] ∧ r = x :=
  Program.leads_done

theorem Attempt.leads_lift {p : Routine Call Call.Answer α} {r : Except Failure α} :
    (ExceptT.lift p : Attempt Call Call.Answer α).run.Leads t r ↔ ∃ x, r = .ok x ∧ p.Leads t x := by
  change Program.Leads (Program.bind p fun x => .done (.ok x)) t r ↔ _
  rw [Program.leads_bind]
  constructor
  · rintro ⟨t₁, x, t₂, h₁, h₂, rfl⟩
    obtain ⟨rfl, rfl⟩ := Program.leads_done.mp h₂
    rw [List.append_nil]
    exact ⟨x, rfl, h₁⟩
  · rintro ⟨x, rfl, h⟩
    exact ⟨t, x, [], h, .done _, (List.append_nil t).symm⟩

theorem Attempt.leads_ask {q : Request Call} {r : Except Failure (Request.Reply Call.Answer q)} :
    (Attempt.ask q : Attempt Call Call.Answer _).run.Leads t r ↔ ∃ x, r = .ok x ∧ t = [⟨q, x⟩] := by
  rw [Attempt.ask, Attempt.leads_lift]
  constructor
  · rintro ⟨x, rfl, h⟩
    exact ⟨x, rfl, Program.leads_request.mp h⟩
  · rintro ⟨x, rfl, rfl⟩
    exact ⟨x, rfl, Program.leads_request.mpr rfl⟩

theorem Attempt.leads_call {c : Call} {limit : Option Binary64} {r : Except Failure c.Answer} :
    (Attempt.call c limit).run.Leads t r ↔ t = [⟨.call c limit, r⟩] :=
  Program.leads_request

end Attempts

namespace Token

variable {t : Course}

theorem leads_view {r : Except Failure TokenView} :
    (Token.view : Attempt Call Call.Answer TokenView).run.Leads t r ↔ ∃ v, r = .ok v ∧ t = [⟨.token, v⟩] :=
  Attempt.leads_ask

theorem leads_check {r : Except Failure Unit} :
    (Token.check : Attempt Call Call.Answer Unit).run.Leads t r ↔ ∃ v : TokenView, t = [⟨.token, v⟩] ∧ r = v.check := by
  rw [Token.check, Attempt.leads_bind]
  constructor
  · rintro (⟨e, h, rfl⟩ | ⟨v, t₁, t₂, h₁, h₂, rfl⟩)
    · obtain ⟨v, e, -⟩ := leads_view.mp h
      cases e
    · obtain ⟨v', e, rfl⟩ := leads_view.mp h₁
      cases e
      obtain ⟨rfl, rfl⟩ := Attempt.leads_liftExcept.mp h₂
      exact ⟨v, rfl, rfl⟩
  · rintro ⟨v, rfl, rfl⟩
    exact .inr ⟨v, [⟨.token, v⟩], [], leads_view.mpr ⟨v, rfl, rfl⟩, Attempt.leads_liftExcept.mpr ⟨rfl, rfl⟩, rfl⟩

theorem leads_adapt {α : Type} {a : Attempt Call Call.Answer α} {f : Failure → Failure} {r : Except Failure α} :
    (ExceptT.adapt f a).run.Leads t r ↔ ∃ x, a.run.Leads t x ∧ r = x.mapError f := by
  change Program.Leads (Program.bind a.run fun x => .done (x.mapError f)) t r ↔ _
  rw [Program.leads_bind]
  constructor
  · rintro ⟨t₁, x, t₂, h₁, h₂, rfl⟩
    obtain ⟨rfl, rfl⟩ := Program.leads_done.mp h₂
    rw [List.append_nil]
    exact ⟨x, h₁, rfl⟩
  · rintro ⟨x, h, rfl⟩
    exact ⟨t, x, [], h, .done _, (List.append_nil t).symm⟩

/-- The failure of a call that was made with this time limit. -/
def failureUnder : Option Binary64 → Failure → Failure
  | none, f => f
  | some _, f => asDeadline f

/-- A call that is given so much time, if its time is limited. -/
def boundedCall (c : Call) : Option Binary64 → Attempt Call Call.Answer c.Answer
  | none => Attempt.call c none
  | some left => ExceptT.adapt asDeadline (Attempt.call c (some left))

theorem guard_eq (c : Call) : (Token.guard c : Attempt Call Call.Answer c.Answer) = do
    let v ← view
    v.check
    let result ← boundedCall c v.remaining
    check
    return result := by
  unfold Token.guard
  congr 1
  funext v
  congr 1
  funext _
  cases v.remaining <;> rfl

theorem leads_boundedCall {c : Call} {limit : Option Binary64} {r : Except Failure c.Answer} :
    (boundedCall c limit).run.Leads t r ↔
      ∃ x : Except Failure c.Answer, t = [⟨.call c limit, x⟩] ∧ r = x.mapError (failureUnder limit) := by
  cases limit with
  | none =>
    rw [boundedCall, Attempt.leads_call]
    constructor
    · rintro rfl
      exact ⟨r, rfl, by cases r <;> rfl⟩
    · rintro ⟨x, rfl, rfl⟩
      cases x <;> rfl
  | some left =>
    rw [boundedCall, leads_adapt]
    constructor
    · rintro ⟨x, h, rfl⟩
      exact ⟨x, Attempt.leads_call.mp h, rfl⟩
    · rintro ⟨x, h, rfl⟩
      exact ⟨x, Attempt.leads_call.mpr h, rfl⟩

/-- **A guarded call** is not made if the token says no; else its failure is that of the guard, and the token is looked at
once more before its answer is given. -/
theorem leads_guard {c : Call} {r : Except Failure c.Answer} (h : (Token.guard c).run.Leads t r) :
    ∃ v : TokenView, (∃ f, v.check = .error f ∧ t = [⟨.token, v⟩] ∧ r = .error f) ∨ v.check = .ok () ∧
      ((∃ f, t = [⟨.token, v⟩, ⟨.call c v.remaining, .error f⟩] ∧ r = .error (failureUnder v.remaining f)) ∨
        ∃ (a : c.Answer) (v' : TokenView),
          t = [⟨.token, v⟩, ⟨.call c v.remaining, .ok a⟩, ⟨.token, v'⟩] ∧ r = v'.check.map fun _ => a) := by
  rw [guard_eq] at h
  obtain ⟨e, h₁, rfl⟩ | ⟨v, t₁, t₂, h₁, h₂, rfl⟩ := Attempt.leads_bind.mp h
  · obtain ⟨v, e, -⟩ := leads_view.mp h₁
    cases e
  obtain ⟨v', e, rfl⟩ := leads_view.mp h₁
  cases e
  refine ⟨v, ?_⟩
  obtain ⟨f, h₃, rfl⟩ | ⟨⟨⟩, t₃, t₄, h₃, h₄, rfl⟩ := Attempt.leads_bind.mp h₂
  · obtain ⟨rfl, hv⟩ := Attempt.leads_liftExcept.mp h₃
    exact .inl ⟨f, hv.symm, rfl, rfl⟩
  obtain ⟨rfl, hv⟩ := Attempt.leads_liftExcept.mp h₃
  refine .inr ⟨hv.symm, ?_⟩
  obtain ⟨f, h₅, rfl⟩ | ⟨a, t₅, t₆, h₅, h₆, rfl⟩ := Attempt.leads_bind.mp h₄
  · obtain ⟨x | x, rfl, hx⟩ := leads_boundedCall.mp h₅
    · cases hx
      exact .inl ⟨x, rfl, rfl⟩
    · cases hx
  obtain ⟨x | x, rfl, hx⟩ := leads_boundedCall.mp h₅
  · cases hx
  cases hx
  obtain ⟨f, h₇, rfl⟩ | ⟨⟨⟩, t₇, t₈, h₇, h₈, rfl⟩ := Attempt.leads_bind.mp h₆
  · obtain ⟨v', rfl, hv'⟩ := leads_check.mp h₇
    exact .inr ⟨a, v', rfl, by rw [← hv']; rfl⟩
  · obtain ⟨v', rfl, hv'⟩ := leads_check.mp h₇
    obtain ⟨rfl, rfl⟩ := Attempt.leads_pure.mp h₈
    exact .inr ⟨a, v', rfl, by rw [← hv']; rfl⟩

end Token

/-! ## Parts of a run -/

namespace Run

variable {α β : Type} {vs vs' : Variables} {t : Course}

/-- The part of a run may take this course from the variables `vs`, with this result, and leave the variables `vs'`. -/
def Leads (m : Run α) (vs : Variables) (t : Course) (r : Except Failure α) (vs' : Variables) : Prop :=
  (m.run.run vs).Leads t (r, vs')

theorem Leads.result_unique {m : Run α} {vs'' : Variables} {r r' : Except Failure α} (h : m.Leads vs t r vs')
    (h' : m.Leads vs t r' vs'') : r = r' ∧ vs' = vs'' :=
  Prod.mk.injEq .. ▸ Program.Leads.result_unique h h'

/-- **The course of a sequence**: the first part fails, or what follows goes on with its result and its variables. -/
theorem leads_bind {m : Run α} {f : α → Run β} {r : Except Failure β} :
    (m >>= f).Leads vs t r vs' ↔ (∃ e, m.Leads vs t (.error e) vs' ∧ r = .error e) ∨
      ∃ x vs₁ t₁ t₂, m.Leads vs t₁ (.ok x) vs₁ ∧ (f x).Leads vs₁ t₂ r vs' ∧ t = t₁ ++ t₂ := by
  unfold Leads
  rw [ExceptT.run_bind, StateT.run_bind]
  change Program.Leads (Program.bind _ _) t (r, vs') ↔ _
  rw [Program.leads_bind]
  constructor
  · rintro ⟨t₁, ⟨x | x, vs₁⟩, t₂, h₁, h₂, rfl⟩
    · obtain ⟨rfl, e⟩ := Program.leads_done.mp h₂
      cases e
      rw [List.append_nil]
      exact .inl ⟨x, h₁, rfl⟩
    · exact .inr ⟨x, vs₁, t₁, t₂, h₁, h₂, rfl⟩
  · rintro (⟨e, h, rfl⟩ | ⟨x, vs₁, t₁, t₂, h₁, h₂, rfl⟩)
    · exact ⟨t, (.error e, vs'), [], h, .done _, (List.append_nil t).symm⟩
    · exact ⟨t₁, (.ok x, vs₁), t₂, h₁, h₂, rfl⟩

theorem leads_pure {x : α} {r : Except Failure α} :
    (pure x : Run α).Leads vs t r vs' ↔ t = [] ∧ r = .ok x ∧ vs' = vs := by
  change Program.Leads (Program.done (Except.ok x, vs)) t (r, vs') ↔ _
  rw [Program.leads_done, Prod.mk.injEq]

theorem leads_liftExcept {x r : Except Failure α} :
    (liftM x : Run α).Leads vs t r vs' ↔ t = [] ∧ r = x ∧ vs' = vs := by
  change Program.Leads (Program.done (x, vs)) t (r, vs') ↔ _
  rw [Program.leads_done, Prod.mk.injEq]

theorem leads_attempt {a : Attempt Call Call.Answer α} {r : Except Failure α} :
    (Run.attempt a).Leads vs t r vs' ↔ a.run.Leads t r ∧ vs' = vs := by
  change Program.Leads (Program.bind a.run fun r => .done (r, vs)) t (r, vs') ↔ _
  rw [Program.leads_bind]
  constructor
  · rintro ⟨t₁, r', t₂, h₁, h₂, rfl⟩
    obtain ⟨rfl, e⟩ := Program.leads_done.mp h₂
    cases e
    rw [List.append_nil]
    exact ⟨h₁, rfl⟩
  · rintro ⟨h, rfl⟩
    exact ⟨t, r, [], h, .done _, (List.append_nil t).symm⟩

theorem leads_call {c : Call} {r : Except Failure c.Answer} :
    (Run.call c).Leads vs t r vs' ↔ t = [⟨.call c none, r⟩] ∧ vs' = vs := by
  rw [Run.call, leads_attempt, Attempt.leads_call]

theorem leads_now {r : Except Failure DateTime} :
    Run.now.Leads vs t r vs' ↔ ∃ reading, t = [⟨.now, reading⟩] ∧ r = .ok (Clock.stamp reading) ∧ vs' = vs := by
  change Program.Leads (Program.ask Request.now fun x => .done (.ok (Clock.stamp x), vs)) t (r, vs') ↔ _
  rw [Program.leads_ask]
  constructor
  · rintro ⟨x, t', rfl, h⟩
    obtain ⟨rfl, e⟩ := Program.leads_done.mp h
    cases e
    exact ⟨x, rfl, rfl, rfl⟩
  · rintro ⟨x, rfl, rfl, rfl⟩
    exact ⟨x, [], rfl, .done _⟩

theorem leads_check {r : Except Failure Unit} :
    Run.check.Leads vs t r vs' ↔ ∃ v : TokenView, t = [⟨.token, v⟩] ∧ r = v.check ∧ vs' = vs := by
  rw [Run.check, leads_attempt, Token.leads_check]
  constructor
  · rintro ⟨⟨v, rfl, rfl⟩, rfl⟩
    exact ⟨v, rfl, rfl, rfl⟩
  · rintro ⟨v, rfl, rfl, rfl⟩
    exact ⟨⟨v, rfl, rfl⟩, rfl⟩

theorem leads_current {r : Except Failure Variables} :
    Run.current.Leads vs t r vs' ↔ t = [] ∧ r = .ok vs ∧ vs' = vs := by
  change Program.Leads (Program.done (Except.ok vs, vs)) t (r, vs') ↔ _
  rw [Program.leads_done, Prod.mk.injEq]

theorem leads_setVariable {name : String} {v : Value} {r : Except Failure Unit} :
    (Run.setVariable name v).Leads vs t r vs' ↔ t = [] ∧ r = .ok () ∧ vs' = vs.set name v := by
  change Program.Leads (Program.done (Except.ok (), vs.set name v)) t (r, vs') ↔ _
  rw [Program.leads_done, Prod.mk.injEq]

theorem leads_lookup {path : String} {r : Except Failure Value} :
    (Run.lookup path).Leads vs t r vs' ↔ t = [] ∧ r = Variables.lookup vs (.str path) ∧ vs' = vs := by
  change Program.Leads (Program.done (Variables.lookup vs (.str path), vs)) t (r, vs') ↔ _
  rw [Program.leads_done, Prod.mk.injEq]

theorem leads_observe {m : Run α} {r : Except Failure (Except Failure α)} :
    m.observe.Leads vs t r vs' ↔ ∃ x, r = .ok x ∧ m.Leads vs t x vs' := by
  change Program.Leads (Program.bind (m.run.run vs) fun x => .done (.ok x.1, x.2)) t (r, vs') ↔ _
  rw [Program.leads_bind]
  constructor
  · rintro ⟨t₁, ⟨x, vs₁⟩, t₂, h₁, h₂, rfl⟩
    obtain ⟨rfl, e⟩ := Program.leads_done.mp h₂
    cases e
    rw [List.append_nil]
    exact ⟨x, rfl, h₁⟩
  · rintro ⟨x, rfl, h⟩
    exact ⟨t, (x, vs'), [], h, .done _, (List.append_nil t).symm⟩

end Run

/-! ## Obliging surroundings -/

/-- The answers of collaborators that do all they are asked for; web calls are answered with this text. -/
def Call.obliged (stored : StoredWorkflow) (web : String) : (c : Call) → Except Failure c.Answer
  | getWorkflow .. => .ok (some stored)
  | createExecution _ => .ok "execution"
  | updateExecution .. => .ok ()
  | createStepRun start => .ok start.path.text
  | updateStepRun .. => .ok ()
  | freshId => .ok "id"
  | sendEmail _ => .ok ()
  | notify .. => .ok ()
  | insert .. => .ok ()
  | update .. => .ok true
  | http _ => .ok ⟨200, "OK", web⟩
  | closeHttp => .ok ()

/-- Surroundings in which nothing fails, nobody cancels and no time passes. -/
def obliging (stored : StoredWorkflow) (web : String) : Surroundings (Request Call) (Request.Reply Call.Answer)
  | _, .now => (0 : Binary64)
  | _, .token => ⟨{}, 0⟩
  | _, .openToken _ => ()
  | _, .awaitCancel _ => .ok false
  | _, .call c _ => c.obliged stored web
  | _, .enlist .. => ()
  | _, .delist _ => ()

end Runbook
