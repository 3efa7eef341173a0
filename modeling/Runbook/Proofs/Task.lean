import Runbook.Proofs.Origin
import Runbook.Proofs.Recordable
import Runbook.Proofs.Walk

/-!
# Tasks without steps of their own

A comparison, an action, a wait or a web call may fail, but it leaves the audit to others: it calls services or the web only,
and sets at most the one variable that holds its outcome.

* `Attempt.Tame`, `Run.Tame`: parts of a run that make calls of some kind only and touch no variable.
* **`Engine.calls_of_plain`**, **`Engine.failsBy_of_plain`**: the calls and the failures of such a task.
* **`Engine.leads_condition`**, **`Engine.leads_webhook`**: the variable that a comparison or a web call sets.
-/

namespace Runbook

/-! ## Kinds of calls -/

namespace Call

/-- A call that records what a run does. -/
def isAudit : Call → Bool
  | createExecution _ | updateExecution .. | createStepRun _ | updateStepRun .. => true
  | _ => false

/-- A call that an action makes. -/
def isService : Call → Bool
  | freshId | sendEmail _ | notify .. | insert .. | update .. => true
  | _ => false

/-- A call that a web call makes. -/
def isWeb : Call → Bool
  | http _ | closeHttp => true
  | _ => false

/-- A call that a task makes. -/
def isErrand (c : Call) : Bool := c.isService || c.isWeb

theorem isWeb_of_isService {c : Call} (h : c.isService) : c.isWeb = false := by
  cases c <;> first | rfl | cases h

end Call

/-- A request that leaves tokens and the list of running executions as they are. -/
def Request.isOrdinary {C : Type} : Request C → Bool
  | openToken _ | enlist .. | delist _ => false
  | _ => true

/-! ## Tame parts -/

section Tame

variable {α β : Type} {P : Call → Bool}

/-- Makes calls of this kind only and no requests but ordinary ones. -/
structure Attempt.Tame (P : Call → Bool) (a : Attempt Call Call.Answer α) : Prop where
  calls {t : Course} {r : Except Failure α} : a.run.Leads t r → ∀ m ∈ t.calls, P m.call
  asks {t : Course} {r : Except Failure α} : a.run.Leads t r → ∀ x ∈ t, x.op.isOrdinary

namespace Attempt.Tame

theorem bind {a : Attempt Call Call.Answer α} {f : α → Attempt Call Call.Answer β} (ha : Attempt.Tame P a)
    (hf : ∀ x, Attempt.Tame P (f x)) : Attempt.Tame P (a >>= f) where
  calls h := by
    obtain ⟨e, h, -⟩ | ⟨x, t₁, t₂, h₁, h₂, rfl⟩ := Attempt.leads_bind.mp h
    · exact ha.calls h
    · rw [Course.calls_append]
      exact List.forall_mem_append.mpr ⟨ha.calls h₁, (hf x).calls h₂⟩
  asks h := by
    obtain ⟨e, h, -⟩ | ⟨x, t₁, t₂, h₁, h₂, rfl⟩ := Attempt.leads_bind.mp h
    · exact ha.asks h
    · exact List.forall_mem_append.mpr ⟨ha.asks h₁, (hf x).asks h₂⟩

theorem liftExcept {x : Except Failure α} : Attempt.Tame P (liftM x : Attempt Call Call.Answer α) where
  calls h := by
    obtain ⟨rfl, -⟩ := Attempt.leads_liftExcept.mp h
    exact List.forall_mem_nil _
  asks h := by
    obtain ⟨rfl, -⟩ := Attempt.leads_liftExcept.mp h
    exact List.forall_mem_nil _

theorem call {c : Call} {limit : Option Binary64} (hc : P c) : Attempt.Tame P (Attempt.call c limit) where
  calls h := by
    obtain rfl := Attempt.leads_call.mp h
    exact List.forall_mem_singleton.mpr hc
  asks h := by
    obtain rfl := Attempt.leads_call.mp h
    exact List.forall_mem_singleton.mpr rfl

theorem awaitCancel {limit : Binary64} : Attempt.Tame P (Attempt.awaitCancel limit : Attempt Call Call.Answer Bool) where
  calls h := by
    obtain rfl := Program.leads_request.mp h
    exact List.forall_mem_nil _
  asks h := by
    obtain rfl := Program.leads_request.mp h
    exact List.forall_mem_singleton.mpr rfl

theorem now : Attempt.Tame P (Attempt.ask .now : Attempt Call Call.Answer Binary64) where
  calls h := by
    obtain ⟨x, -, rfl⟩ := Attempt.leads_ask.mp h
    exact List.forall_mem_nil _
  asks h := by
    obtain ⟨x, -, rfl⟩ := Attempt.leads_ask.mp h
    exact List.forall_mem_singleton.mpr rfl

theorem view : Attempt.Tame P (Token.view : Attempt Call Call.Answer TokenView) where
  calls h := by
    obtain ⟨x, -, rfl⟩ := Token.leads_view.mp h
    exact List.forall_mem_nil _
  asks h := by
    obtain ⟨x, -, rfl⟩ := Token.leads_view.mp h
    exact List.forall_mem_singleton.mpr rfl

theorem adapt {a : Attempt Call Call.Answer α} {g : Failure → Failure} (ha : Attempt.Tame P a) :
    Attempt.Tame P (ExceptT.adapt g a) where
  calls h := by
    obtain ⟨x, h, -⟩ := Token.leads_adapt.mp h
    exact ha.calls h
  asks h := by
    obtain ⟨x, h, -⟩ := Token.leads_adapt.mp h
    exact ha.asks h

end Attempt.Tame

theorem Token.check_tame : Attempt.Tame P (Token.check : Attempt Call Call.Answer Unit) :=
  .bind .view fun _ => .liftExcept

theorem Token.guard_tame {c : Call} (hc : P c) : Attempt.Tame P (Token.guard c) := by
  rw [Token.guard_eq]
  refine .bind .view fun v => .bind .liftExcept fun _ => .bind ?_ fun _ => .bind Token.check_tame fun _ => .liftExcept
  cases v.remaining with
  | none => exact .call hc
  | some left => exact .adapt (.call hc)

theorem Token.sleep_tame {seconds : Binary64} : Attempt.Tame P (Token.sleep seconds : Attempt Call Call.Answer Unit) := by
  unfold Token.sleep
  refine .bind .view fun v => .bind .liftExcept fun _ => ?_
  extract_lets
  refine .bind .awaitCancel fun cancelled => ?_
  extract_lets
  split
  · exact .bind (.liftExcept (x := .error Failure.deadlineExceeded)) fun _ => Token.check_tame
  · exact Token.check_tame

/-- Makes calls of this kind only and no requests but ordinary ones, and touches no variable. -/
structure Run.Tame (P : Call → Bool) (m : Run α) : Prop where
  keeps {vs vs' : Variables} {t : Course} {r : Except Failure α} : m.Leads vs t r vs' → vs' = vs
  calls {vs vs' : Variables} {t : Course} {r : Except Failure α} : m.Leads vs t r vs' → ∀ c ∈ t.calls, P c.call
  asks {vs vs' : Variables} {t : Course} {r : Except Failure α} : m.Leads vs t r vs' → ∀ x ∈ t, x.op.isOrdinary

namespace Run.Tame

theorem bind {m : Run α} {f : α → Run β} (hm : m.Tame P) (hf : ∀ x, (f x).Tame P) : (m >>= f).Tame P where
  keeps h := by
    obtain ⟨e, h, -⟩ | ⟨x, vs₁, t₁, t₂, h₁, h₂, -⟩ := Run.leads_bind.mp h
    · exact hm.keeps h
    · rw [(hf x).keeps h₂, hm.keeps h₁]
  calls h := by
    obtain ⟨e, h, -⟩ | ⟨x, vs₁, t₁, t₂, h₁, h₂, rfl⟩ := Run.leads_bind.mp h
    · exact hm.calls h
    · rw [Course.calls_append]
      exact List.forall_mem_append.mpr ⟨hm.calls h₁, (hf x).calls h₂⟩
  asks h := by
    obtain ⟨e, h, -⟩ | ⟨x, vs₁, t₁, t₂, h₁, h₂, rfl⟩ := Run.leads_bind.mp h
    · exact hm.asks h
    · exact List.forall_mem_append.mpr ⟨hm.asks h₁, (hf x).asks h₂⟩

theorem attempt {a : Attempt Call Call.Answer α} (ha : Attempt.Tame P a) : (Run.attempt a).Tame P where
  keeps h := (Run.leads_attempt.mp h).2
  calls h := ha.calls (Run.leads_attempt.mp h).1
  asks h := ha.asks (Run.leads_attempt.mp h).1

theorem liftExcept {x : Except Failure α} : (liftM x : Run α).Tame P where
  keeps h := (Run.leads_liftExcept.mp h).2.2
  calls h := by
    obtain ⟨rfl, -, -⟩ := Run.leads_liftExcept.mp h
    exact List.forall_mem_nil _
  asks h := by
    obtain ⟨rfl, -, -⟩ := Run.leads_liftExcept.mp h
    exact List.forall_mem_nil _

theorem now : Run.now.Tame P := .bind (.attempt .now) fun _ => .liftExcept

theorem call {c : Call} (hc : P c) : (Run.call c).Tame P := .attempt (.call hc)

theorem guarded {c : Call} (hc : P c) : (Run.guarded c).Tame P := .attempt (Token.guard_tame hc)

end Run.Tame

end Tame

/-! ## Actions -/

theorem Action.perform_tame (a : Action) (registry : Registry) (sender : String) (actor : Actor) :
    (a.perform registry sender actor).Tame Call.isService := by
  cases a with
  | sendEmail => exact .guarded rfl
  | createRecord table data =>
    exact .bind .liftExcept fun _ => .bind (.call rfl) fun _ => .bind .now fun _ => .guarded rfl
  | updateRecord table record data =>
    exact .bind .liftExcept fun _ => .bind .now fun _ => .bind (.guarded rfl) fun _ => .liftExcept
  | sendNotification => exact .guarded rfl

/-! ## Web calls -/

/-- The value that a web call was answered with. -/
def Made.reply? : Made → Option Value
  | ⟨.http _, r⟩ => match (r : Except Failure Http.Response) with
    | .ok response => (Webhook.replyOf response).toOption
    | .error _ => none
  | _ => none

/-- The values that the web calls of a course were answered with, in order. -/
def Course.replies (t : Course) : List Value := t.calls.filterMap Made.reply?

@[simp] theorem Course.replies_append (t t' : Course) : replies (t ++ t') = replies t ++ replies t' := by
  rw [replies, calls_append, List.filterMap_append]
  rfl

namespace Webhook

section Failures

variable {registry : Registry} {Q : Failure → Prop} {f : Failure}

theorem failure_of_checkUrl (hQ : registry.Covers Q) {url : String} (h : checkUrl url = .error f) : Q f := by
  unfold checkUrl at h
  split at h
  · cases h
    exact hQ.misuse _
  · split at h <;> cases h
    exact hQ.unsafeUrl _

theorem failure_of_contentOf (hQ : registry.Covers Q) {body : Value} (h : contentOf body = .error f) : Q f := by
  unfold contentOf at h
  split at h
  · cases h
  · obtain ⟨e, rfl⟩ := mapError_eq_error h
    exact hQ.misuse _

theorem failure_of_replyOf (hQ : registry.Covers Q) {response : Http.Response} (h : replyOf response = .error f) : Q f := by
  unfold replyOf at h
  split at h
  · cases h
    exact hQ.webhookFailed _ _
  · split at h
    · cases h
    · obtain ⟨e, rfl⟩ := mapError_eq_error h
      exact hQ.misuse _

end Failures

theorem isRecordable_of_replyOf {response : Http.Response} {v : Value} (h : replyOf response = .ok v) : v.isRecordable := by
  unfold replyOf at h
  split at h
  · cases h
  · split at h
    · cases h
      rfl
    · exact Json.isRecordable_of_read (mapError_eq_ok h)

variable {options : WebhookOptions} {w : Webhook} {vs vs' : Variables} {t : Course}

/-- What a web call does once its request is put together. -/
def exchange (options : WebhookOptions) (w : Webhook) (content : Option String) : Run Value := do
  let view ← Run.attempt Token.view
  let timeout := match view.remaining with
    | some left => options.timeout.min left
    | none => options.timeout
  let response ← Run.observe
    (Run.guarded (.http ⟨timeout, w.method, w.url, headersOf w.headers, content⟩))
  Run.call .closeHttp
  replyOf (← response)

theorem run_eq (options : WebhookOptions) (w : Webhook) : w.run options =
    (liftM (if options.blockPrivateNetworks then checkUrl w.url else .ok ()) >>= fun (_ : Unit) =>
      liftM (contentOf w.body) >>= exchange options w) := by
  unfold run
  extract_lets goOn
  split <;> rfl

/-- The client is closed however the call ends; its failure comes before that of the call. -/
theorem leads_exchange {content : Option String} {r : Except Failure Value}
    (h : (exchange options w content).Leads vs t r vs') :
    vs' = vs ∧ ∃ (v : TokenView) (request : Http.Request) (t' : Course) (x : Except Failure (Call.http request).Answer)
      (a : Except Failure Unit), t = ⟨.token, v⟩ :: t' ++ [⟨.call .closeHttp none, a⟩] ∧
        (Token.guard (.http request)).run.Leads t' x ∧ r = a.bind fun _ => x.bind replyOf := by
  obtain ⟨f, h₁, rfl⟩ | ⟨v, vs₁, t₁, t₂, h₁, h₂, rfl⟩ := Run.leads_bind.mp h
  · obtain ⟨_, ⟨⟩, -⟩ := Token.leads_view.mp (Run.leads_attempt.mp h₁).1
  obtain ⟨hv, rfl⟩ := Run.leads_attempt.mp h₁
  obtain ⟨_, ⟨⟩, rfl⟩ := Token.leads_view.mp hv
  obtain ⟨f, h₃, rfl⟩ | ⟨x, vs₂, t₃, t₄, h₃, h₄, rfl⟩ := Run.leads_bind.mp h₂
  · obtain ⟨_, ⟨⟩, -⟩ := Run.leads_observe.mp h₃
  obtain ⟨_, ⟨⟩, ho⟩ := Run.leads_observe.mp h₃
  obtain ⟨hg, rfl⟩ := Run.leads_attempt.mp ho
  obtain ⟨f, h₅, rfl⟩ | ⟨⟨⟩, vs₃, t₅, t₆, h₅, h₆, rfl⟩ := Run.leads_bind.mp h₄
  · obtain ⟨rfl, rfl⟩ := Run.leads_call.mp h₅
    exact ⟨rfl, v, _, t₃, x, .error f, rfl, hg, rfl⟩
  obtain ⟨rfl, rfl⟩ := Run.leads_call.mp h₅
  obtain ⟨f, h₇, rfl⟩ | ⟨y, vs₄, t₇, t₈, h₇, h₈, rfl⟩ := Run.leads_bind.mp h₆
  · obtain ⟨rfl, rfl, rfl⟩ := Run.leads_liftExcept.mp h₇
    exact ⟨rfl, v, _, t₃, .error f, .ok (), rfl, hg, rfl⟩
  obtain ⟨rfl, rfl, rfl⟩ := Run.leads_liftExcept.mp h₇
  obtain ⟨rfl, rfl, rfl⟩ := Run.leads_liftExcept.mp h₈
  exact ⟨rfl, v, _, t₃, .ok y, .ok (), rfl, hg, rfl⟩

theorem exchange_tame (content : Option String) : (exchange options w content).Tame Call.isWeb where
  keeps h := (leads_exchange h).1
  calls h := by
    obtain ⟨-, v, request, t', x, a, rfl, hg, -⟩ := leads_exchange h
    rw [Course.calls_append, Course.calls_token]
    exact List.forall_mem_append.mpr ⟨(Token.guard_tame (P := Call.isWeb) rfl).calls hg, List.forall_mem_singleton.mpr rfl⟩
  asks h := by
    obtain ⟨-, v, request, t', x, a, rfl, hg, -⟩ := leads_exchange h
    have hguard := (Token.guard_tame (P := Call.isWeb) rfl).asks hg
    exact List.forall_mem_append.mpr ⟨List.forall_mem_cons.mpr ⟨rfl, hguard⟩, List.forall_mem_singleton.mpr rfl⟩

/-- Of the failures of an exchange that of the client's closing comes first, and then those of the call and of its reply. -/
theorem exchange_failsBy {registry : Registry} {Q : Failure → Prop} (hQ : registry.Covers Q) (content : Option String) :
    (exchange options w content).FailsBy Q := by
  intro vs t f vs' h ht
  obtain ⟨-, v, request, t', x, a, rfl, hg, hr⟩ := leads_exchange h
  obtain ⟨htok, hclose⟩ := Course.meets_append.mp ht
  cases a with
  | error f =>
    cases hr
    exact hclose _ List.mem_cons_self _ rfl
  | ok _ =>
    cases x with
    | error f =>
      cases hr
      exact Token.guard_failsBy hQ _ _ _ hg (Course.meets_cons.mp htok).2
    | ok response => exact failure_of_replyOf hQ hr.symm

theorem run_tame (options : WebhookOptions) (w : Webhook) : (w.run options).Tame Call.isWeb := by
  rw [run_eq]
  exact .bind .liftExcept fun _ => .bind .liftExcept exchange_tame

theorem run_failsBy {registry : Registry} {Q : Failure → Prop} (hQ : registry.Covers Q) (options : WebhookOptions)
    (w : Webhook) : (w.run options).FailsBy Q := by
  rw [run_eq]
  refine .bind (.liftExcept fun f hf => ?_) fun _ => .bind (.liftExcept fun _ => failure_of_contentOf hQ) (exchange_failsBy hQ)
  split at hf
  · exact failure_of_checkUrl hQ hf
  · cases hf

/-- A web call that succeeds gives the value of its reply. -/
theorem replies_of_run {v : Value} (h : (w.run options).Leads vs t (.ok v) vs') : t.replies = [v] ∧ v.isRecordable := by
  rw [run_eq] at h
  obtain ⟨f, h₁, ⟨⟩⟩ | ⟨⟨⟩, vs₁, t₁, t₂, h₁, h₂, rfl⟩ := Run.leads_bind.mp h
  obtain ⟨rfl, -, rfl⟩ := Run.leads_liftExcept.mp h₁
  obtain ⟨f, h₃, ⟨⟩⟩ | ⟨content, vs₂, t₃, t₄, h₃, h₄, rfl⟩ := Run.leads_bind.mp h₂
  obtain ⟨rfl, -, rfl⟩ := Run.leads_liftExcept.mp h₃
  obtain ⟨-, view, request, t', x, a, rfl, hg, hr⟩ := leads_exchange h₄
  cases a with
  | error f => cases hr
  | ok _ =>
    cases x with
    | error f => cases hr
    | ok response =>
      have hv : replyOf response = .ok v := hr.symm
      obtain ⟨v', ⟨f, -, -, ⟨⟩⟩ | ⟨-, ⟨f, -, ⟨⟩⟩ | ⟨answer, v'', rfl, ha⟩⟩⟩ := Token.leads_guard hg
      cases hc : v''.check with
      | error f => rw [hc] at ha; cases ha
      | ok _ =>
        rw [hc] at ha
        cases ha
        refine ⟨?_, isRecordable_of_replyOf hv⟩
        show [Made.mk (.http request) (.ok answer), ⟨.closeHttp, .ok ()⟩].filterMap Made.reply? = [v]
        simp only [List.filterMap_cons, List.filterMap_nil, Made.reply?, hv, Except.toOption]

end Webhook

namespace Engine

variable {g : Engine} {e : Opened} {path : StepPath} {vs vs' : Variables} {t : Course} {r : Except Failure Unit}

/-! ## Comparisons -/

/-- The outcome of the comparison of the value at a path. -/
def compared (vs : Variables) (path : String) (operator : Operator) (expected : Value) : Except Failure Bool :=
  (Variables.lookup vs (.str path)).bind fun actual =>
    (operator.evaluate actual expected).mapError fun e => .misuse (.notComparable e)

/-- The variables with the outcome of a comparison, if it has one. -/
def afterCompare (vs : Variables) (step path : String) (operator : Operator) (expected : Value) : Variables :=
  match compared vs path operator expected with
  | .ok b => Entries.set vs (step ++ "_result") (.bool b)
  | .error _ => vs

theorem leads_compare {step at_ : String} {operator : Operator} {expected : Value}
    (h : (compare step at_ operator expected).Leads vs t r vs') :
    t = [] ∧ r = (compared vs at_ operator expected).map (fun _ => ()) ∧
      vs' = afterCompare vs step at_ operator expected := by
  unfold afterCompare compared
  obtain ⟨f, h₁, rfl⟩ | ⟨v, vs₁, t₁, t₂, h₁, h₂, rfl⟩ := Run.leads_bind.mp h
  · obtain ⟨rfl, hv, rfl⟩ := Run.leads_lookup.mp h₁
    rw [← hv]
    exact ⟨rfl, rfl, rfl⟩
  obtain ⟨rfl, hv, rfl⟩ := Run.leads_lookup.mp h₁
  rw [← hv]
  obtain ⟨f, h₃, rfl⟩ | ⟨b, vs₂, t₃, t₄, h₃, h₄, rfl⟩ := Run.leads_bind.mp h₂
  · obtain ⟨rfl, hb, rfl⟩ := Run.leads_liftExcept.mp h₃
    refine ⟨rfl, ?_, ?_⟩ <;> simp only [Except.bind, ← hb, Except.map]
  obtain ⟨rfl, hb, rfl⟩ := Run.leads_liftExcept.mp h₃
  obtain ⟨rfl, rfl, rfl⟩ := Run.leads_setVariable.mp h₄
  refine ⟨rfl, ?_, ?_⟩ <;> simp only [Except.bind, ← hb, Except.map]

theorem failure_of_compared {Q : Failure → Prop} (hQ : g.registry.Covers Q) {at_ : String} {operator : Operator}
    {expected : Value} {f : Failure} (h : compared vs at_ operator expected = .error f) : Q f := by
  unfold compared at h
  cases hv : Variables.lookup vs (.str at_) with
  | error f' =>
    rw [hv] at h
    cases h
    obtain ⟨e, rfl⟩ := mapError_eq_error hv
    exact hQ.misuse _
  | ok v =>
    rw [hv] at h
    obtain ⟨e, rfl⟩ := mapError_eq_error h
    exact hQ.misuse _

/-! ## All tasks without steps -/

/-- **What a web call leaves**: its reply under the name of the step, or nothing if it fails. -/
theorem leads_webhook {w : Webhook} (h : (g.execute e path (.webhook w)).Leads vs t r vs') :
    (∃ f, (w.run g.webhook).Leads vs t (.error f) vs' ∧ r = .error f) ∨
      ∃ v, (w.run g.webhook).Leads vs t (.ok v) vs ∧ r = .ok () ∧ vs' = Entries.set vs (path.id ++ "_response") v := by
  obtain ⟨f, h₁, rfl⟩ | ⟨v, vs₁, t₁, t₂, h₁, h₂, rfl⟩ := Run.leads_bind.mp h
  · exact .inl ⟨f, h₁, rfl⟩
  · obtain ⟨rfl, rfl, rfl⟩ := Run.leads_setVariable.mp h₂
    rw [List.append_nil]
    have hkeeps := (w.run_tame g.webhook).keeps h₁
    exact .inr ⟨v, hkeeps ▸ h₁, rfl, by rw [hkeeps]⟩

theorem action_tame (a : Action) : (g.execute e path (.action a)).Tame Call.isService :=
  .bind .liftExcept fun _ => a.perform_tame ..

theorem delay_tame (milliseconds : Option Binary64) : (g.execute e path (.delay milliseconds)).Tame fun _ => false :=
  .attempt Token.sleep_tame

/-- **The calls of a task without steps** are errands. -/
theorem calls_of_plain {task : Task} (hp : task.isPlain) (h : (g.execute e path task).Leads vs t r vs') :
    ∀ m ∈ t.calls, m.call.isErrand := by
  intro m hm
  rw [Call.isErrand, Bool.or_eq_true]
  match task with
  | .condition .. =>
    rw [(leads_compare h).1] at hm
    cases hm
  | .action a => exact .inl ((action_tame a).calls h m hm)
  | .delay milliseconds => cases (delay_tame milliseconds).calls h m hm
  | .webhook w =>
    obtain ⟨f, hw, -⟩ | ⟨v, hw, -, -⟩ := leads_webhook h
    · exact .inr ((w.run_tame g.webhook).calls hw m hm)
    · exact .inr ((w.run_tame g.webhook).calls hw m hm)

theorem isOrdinary_of_plain {task : Task} (hp : task.isPlain) (h : (g.execute e path task).Leads vs t r vs') :
    ∀ x ∈ t, x.op.isOrdinary := by
  match task with
  | .condition .. =>
    rw [(leads_compare h).1]
    exact List.forall_mem_nil _
  | .action a => exact (action_tame a).asks h
  | .delay milliseconds => exact (delay_tame milliseconds).asks h
  | .webhook w =>
    obtain ⟨f, hw, -⟩ | ⟨v, hw, -, -⟩ := leads_webhook h
    · exact (w.run_tame g.webhook).asks hw
    · exact (w.run_tame g.webhook).asks hw

/-- **The failures of a task without steps** are those of its calls and those of the engine itself. -/
theorem failsBy_of_plain {Q : Failure → Prop} (hQ : g.registry.Covers Q) {task : Task} (hp : task.isPlain) :
    (g.execute e path task).FailsBy Q := by
  intro vs t f vs' h ht
  match task with
  | .condition at_ operator expected =>
    have hr := (leads_compare h).2.1
    cases hc : compared vs at_ operator expected with
    | error f' =>
      rw [hc] at hr
      cases hr
      exact failure_of_compared hQ hc
    | ok b =>
      rw [hc] at hr
      cases hr
  | .action a =>
    have hperform : (g.execute e path (.action a)).FailsBy Q :=
      .bind (.liftExcept fun _ => hQ.action) fun _ => a.perform_failsBy hQ _ _
    exact hperform _ _ _ _ h ht
  | .delay milliseconds =>
    have hwait : (g.execute e path (.delay milliseconds)).FailsBy Q := .attempt (Token.sleep_failsBy hQ _)
    exact hwait _ _ _ _ h ht
  | .webhook w =>
    obtain ⟨f, h, ⟨⟩⟩ | ⟨v, -, ⟨⟩, -⟩ := leads_webhook h
    exact w.run_failsBy hQ _ _ _ _ _ h ht

/-- A task without steps leaves recordable variables as it finds such. -/
theorem areRecordable_of_plain {task : Task} (hp : task.isPlain) (h : (g.execute e path task).Leads vs t r vs')
    (hvs : vs.AreRecordable) : vs'.AreRecordable := by
  match task with
  | .condition at_ operator expected =>
    rw [(leads_compare h).2.2, afterCompare]
    split
    · exact hvs.set rfl _
    · exact hvs
  | .action a => exact (action_tame a).keeps h ▸ hvs
  | .delay milliseconds => exact (delay_tame milliseconds).keeps h ▸ hvs
  | .webhook w =>
    obtain ⟨f, hw, -⟩ | ⟨v, hw, -, rfl⟩ := leads_webhook h
    · exact (w.run_tame g.webhook).keeps hw ▸ hvs
    · exact hvs.set (Webhook.replies_of_run hw).2 _

end Engine

end Runbook
