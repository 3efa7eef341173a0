import Runbook.Engine
import Runbook.Proofs.Named
import Runbook.Proofs.Result

/-!
# Where failures come from

A part of a run fails by a failure that it was answered with, by that of a token that it finds dead or by one of its own, and
passes on the first one that it meets. So a property that the failures of its own have is one of all its failures, as long as
those that it meets in its course have it.

* `Course.Meets`: what is true of all failures that a course meets.
* `Attempt.FailsBy`, `Run.FailsBy`: parts that fail by failures with a property only, if they meet no others.
* `Registry.Covers`: a property that the failures of the engine itself have.
* **`Token.guard_failsBy`**, **`Action.perform_failsBy`**: guarded calls and actions.
-/

namespace Runbook

/-- The failure that a request was answered with. -/
def Exchange.failure? : Exchange (Request Call) (Request.Reply Call.Answer) → Option Failure
  | ⟨.call c _, r⟩ => match (r : Except Failure c.Answer) with
    | .error f => some f
    | .ok _ => none
  | ⟨.awaitCancel _, r⟩ => match (r : Except Failure Bool) with
    | .error f => some f
    | .ok _ => none
  | _ => none

/-- The failure that comes to light in an exchange: the one that a request was answered with, or that of a dead token. -/
def Exchange.met? : Exchange (Request Call) (Request.Reply Call.Answer) → Option Failure
  | ⟨.token, v⟩ => faultOf? (TokenView.check v)
  | x => x.failure?

theorem TokenView.check_eq_error {v : TokenView} {f : Failure} (h : v.check = .error f) :
    (∃ reason, f = .cancelled reason) ∨ f = .deadlineExceeded := by
  unfold check at h
  split at h
  · cases h
    exact .inl ⟨_, rfl⟩
  · split at h <;> cases h
    exact .inr rfl

theorem Exchange.met?_token {v : TokenView} {f : Failure} (h : v.check = .error f) :
    Exchange.met? ⟨.token, v⟩ = some f := by
  show faultOf? v.check = some f
  rw [h]
  rfl

/-- What comes to light is the failure of a dead token or that of an answer. -/
theorem Exchange.met?_eq_some {x : Exchange (Request Call) (Request.Reply Call.Answer)} {f : Failure} (h : x.met? = some f) :
    (∃ v : TokenView, x = ⟨.token, v⟩ ∧ v.check = .error f) ∨ x.failure? = some f := by
  obtain ⟨op, r⟩ := x
  cases op with
  | token => exact .inl ⟨r, rfl, eq_error_of_faultOf? h⟩
  | _ => exact .inr h

variable {Q : Failure → Prop}

/-- All failures that come to light in a course have this property. -/
def Course.Meets (Q : Failure → Prop) (t : Course) : Prop := ∀ x ∈ t, ∀ f, x.met? = some f → Q f

theorem Course.meets_append {t t' : Course} : Course.Meets Q (t ++ t') ↔ t.Meets Q ∧ t'.Meets Q := by
  unfold Course.Meets
  rw [List.forall_mem_append]

theorem Course.meets_cons {x : Exchange (Request Call) (Request.Reply Call.Answer)} {t : Course} :
    Course.Meets Q (x :: t) ↔ (∀ f, x.met? = some f → Q f) ∧ t.Meets Q := by
  unfold Course.Meets
  rw [List.forall_mem_cons]

/-- A property that the failures of a registry's engine have: those of its lookups, of values that cannot be used and of waits that
reach their deadline. -/
structure Registry.Covers (registry : Registry) (Q : Failure → Prop) : Prop where
  kind {kind : StepKind} {f : Failure} : registry.checkKind kind = .error f → Q f
  action {kind : ActionKind} {f : Failure} : registry.checkAction kind = .error f → Q f
  table {table : Table} {f : Failure} : registry.checkTable table = .error f → Q f
  misuse (cause : Misuse) : Q (.misuse cause)
  notAnArray (collection : String) : Q (.fault (.notAnArray collection))
  unsafeUrl (cause : UnsafeUrl) : Q (.fault (.unsafeUrl cause))
  webhookFailed (status : Int) (reason : String) : Q (.fault (.webhookFailed status reason))
  deadlineExceeded : Q .deadlineExceeded

variable {registry : Registry} {α β : Type}

/-- So it is if all causes have it that the engine can report but a cancellation. -/
theorem Registry.Covers.of_causes (hfault : ∀ cause : Fault, (∀ reason, cause ≠ .cancelled reason) → Q (.fault cause))
    (hmisuse : ∀ cause, Q (.misuse cause)) : registry.Covers Q where
  kind h := by
    unfold Registry.checkKind at h
    split at h <;> cases h
    exact hfault _ nofun
  action h := by
    unfold Registry.checkAction at h
    split at h <;> cases h
    exact hfault _ nofun
  table h := by
    unfold Registry.checkTable at h
    split at h <;> cases h
    exact hfault _ nofun
  misuse := hmisuse
  notAnArray _ := hfault _ nofun
  unsafeUrl _ := hfault _ nofun
  webhookFailed _ _ := hfault _ nofun
  deadlineExceeded := hfault _ nofun

/-! ## Attempts -/

/-- Fails by a failure with this property, unless it meets one without it. -/
def Attempt.FailsBy (Q : Failure → Prop) (a : Attempt Call Call.Answer α) : Prop :=
  ∀ t f, a.run.Leads t (.error f) → Course.Meets Q t → Q f

namespace Attempt.FailsBy

theorem bind {a : Attempt Call Call.Answer α} {f : α → Attempt Call Call.Answer β} (ha : Attempt.FailsBy Q a)
    (hf : ∀ x, Attempt.FailsBy Q (f x)) : Attempt.FailsBy Q (a >>= f) := by
  intro t e h ht
  obtain ⟨e', h, he⟩ | ⟨x, t₁, t₂, h₁, h₂, rfl⟩ := Attempt.leads_bind.mp h
  · cases he
    exact ha t e h ht
  · exact hf x t₂ e h₂ (Course.meets_append.mp ht).2

theorem liftExcept {x : Except Failure α} (hx : ∀ f, x = .error f → Q f) :
    Attempt.FailsBy Q (liftM x : Attempt Call Call.Answer α) := fun _ f h _ =>
  hx f (Attempt.leads_liftExcept.mp h).2.symm

theorem call (c : Call) (limit : Option Binary64) : Attempt.FailsBy Q (Attempt.call c limit) := by
  intro t f h ht
  obtain rfl := Attempt.leads_call.mp h
  exact ht _ List.mem_cons_self _ rfl

theorem awaitCancel (limit : Binary64) :
    Attempt.FailsBy Q (Attempt.awaitCancel limit : Attempt Call Call.Answer Bool) := by
  intro t f h ht
  obtain rfl := Program.leads_request.mp h
  exact ht _ List.mem_cons_self _ rfl

theorem ask (q : Request Call) : Attempt.FailsBy Q (Attempt.ask q : Attempt Call Call.Answer _) := by
  intro t f h _
  obtain ⟨x, ⟨⟩, -⟩ := Attempt.leads_ask.mp h

end Attempt.FailsBy

/-! ## Tokens -/

theorem Registry.Covers.asDeadline (hQ : registry.Covers Q) {f : Failure} (h : Q f) : Q (Token.asDeadline f) := by
  cases f with
  | timedOut => exact hQ.deadlineExceeded
  | _ => exact h

/-- What follows on a look at the token may take for granted that the token was alive. -/
theorem Token.look_failsBy {k : TokenView → Attempt Call Call.Answer α} (hk : ∀ v, Attempt.FailsBy Q (k v)) :
    Attempt.FailsBy Q (do
      let v ← Token.view
      v.check
      k v) := by
  intro t f h ht
  obtain ⟨e, h₁, ⟨⟩⟩ | ⟨v, t₁, t₂, h₁, h₂, rfl⟩ := Attempt.leads_bind.mp h
  · obtain ⟨_, ⟨⟩, -⟩ := Token.leads_view.mp h₁
  obtain ⟨_, ⟨⟩, rfl⟩ := Token.leads_view.mp h₁
  obtain ⟨hlook, ht⟩ := Course.meets_append.mp ht
  obtain ⟨e, h₃, ⟨⟩⟩ | ⟨⟨⟩, t₃, t₄, h₃, h₄, rfl⟩ := Attempt.leads_bind.mp h₂
  · exact hlook _ List.mem_cons_self _ (Exchange.met?_token (Attempt.leads_liftExcept.mp h₃).2.symm)
  · exact hk v _ _ h₄ (Course.meets_append.mp ht).2

theorem Token.check_failsBy : Attempt.FailsBy Q Token.check := by
  intro t f h ht
  obtain ⟨v, rfl, hv⟩ := Token.leads_check.mp h
  exact ht _ List.mem_cons_self _ (Exchange.met?_token hv.symm)

/-- A call that is given so much time fails as it does, or at the deadline. -/
theorem Token.boundedCall_failsBy (hQ : registry.Covers Q) (c : Call) (limit : Option Binary64) :
    Attempt.FailsBy Q (Token.boundedCall c limit) := by
  intro t f h ht
  obtain ⟨x, rfl, hx⟩ := Token.leads_boundedCall.mp h
  cases x with
  | ok a => cases hx
  | error f' =>
    cases hx
    have hmet : Q f' := ht _ List.mem_cons_self _ rfl
    cases limit with
    | none => exact hmet
    | some left => exact hQ.asDeadline hmet

/-- **The failures of a guarded call** are those of the call and those of the token. -/
theorem Token.guard_failsBy (hQ : registry.Covers Q) (c : Call) : Attempt.FailsBy Q (Token.guard c) := by
  rw [Token.guard_eq]
  exact Token.look_failsBy fun v => .bind (Token.boundedCall_failsBy hQ c _) fun a => .bind Token.check_failsBy fun _ =>
    .liftExcept (x := .ok a) nofun

theorem Token.sleep_failsBy (hQ : registry.Covers Q) (seconds : Binary64) : Attempt.FailsBy Q (Token.sleep seconds) := by
  unfold Token.sleep
  refine Token.look_failsBy fun v => ?_
  extract_lets
  refine .bind (.awaitCancel _) fun cancelled => ?_
  extract_lets
  split
  · refine .bind (.liftExcept (x := .error Failure.deadlineExceeded) ?_) fun _ => Token.check_failsBy
    rintro f ⟨⟩
    exact hQ.deadlineExceeded
  · exact Token.check_failsBy

/-! ## Parts of a run -/

/-- Fails by a failure with this property, unless it meets one without it. -/
def Run.FailsBy (Q : Failure → Prop) (m : Run α) : Prop :=
  ∀ vs t f vs', m.Leads vs t (.error f) vs' → Course.Meets Q t → Q f

namespace Run.FailsBy

theorem bind {m : Run α} {f : α → Run β} (hm : m.FailsBy Q) (hf : ∀ x, (f x).FailsBy Q) : (m >>= f).FailsBy Q := by
  intro vs t e vs' h ht
  obtain ⟨e', h, he⟩ | ⟨x, vs₁, t₁, t₂, h₁, h₂, rfl⟩ := Run.leads_bind.mp h
  · cases he
    exact hm _ _ _ _ h ht
  · exact hf x _ _ _ _ h₂ (Course.meets_append.mp ht).2

theorem attempt {a : Attempt Call Call.Answer α} (ha : Attempt.FailsBy Q a) : (Run.attempt a).FailsBy Q :=
  fun _ t f _ h => ha t f (Run.leads_attempt.mp h).1

theorem liftExcept {x : Except Failure α} (hx : ∀ f, x = .error f → Q f) : (liftM x : Run α).FailsBy Q :=
  fun _ _ f _ h _ => hx f (Run.leads_liftExcept.mp h).2.1.symm

theorem now : Run.now.FailsBy Q := .bind (.attempt (.ask _)) fun _ => .liftExcept nofun

theorem call (c : Call) : (Run.call c).FailsBy Q := .attempt (.call c none)

theorem guarded (hQ : registry.Covers Q) (c : Call) : (Run.guarded c).FailsBy Q := .attempt (Token.guard_failsBy hQ c)

end Run.FailsBy

/-- **The failures of an action** are those of its calls, of the token and of the lookup of its table. -/
theorem Action.perform_failsBy (hQ : registry.Covers Q) (a : Action) (sender : String) (actor : Actor) :
    (a.perform registry sender actor).FailsBy Q := by
  cases a with
  | sendEmail => exact .guarded hQ _
  | createRecord table data =>
    exact .bind (.liftExcept fun _ => hQ.table) fun _ => .bind (.call _) fun _ => .bind .now fun _ => .guarded hQ _
  | updateRecord table record data =>
    exact .bind (.liftExcept fun _ => hQ.table) fun _ => .bind .now fun _ => .bind (.guarded hQ _) fun _ => .liftExcept nofun
  | sendNotification => exact .guarded hQ _

end Runbook
