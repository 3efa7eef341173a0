import Runbook.Proofs.Close
import Runbook.Proofs.Phase
import Runbook.Proofs.Rule

/-!
# Runs heed their token

A run looks at its token right before it opens a step run, before it waits, and before every call that reaches outside, and it
makes the request only if the token is alive. Nothing happens between the look and the request. So a run whose token is
cancelled or past its deadline asks for nothing of that kind any more, whatever it was doing, and only closes what is open.

A call with a limit is done by the assistant of the run, which begins with the next signal. If the token dies between the
request and that signal, the call is begun all the same.

* `Stand`, `heeding`: what a run may ask, by what it has found its token to be.
* **`Engine.run_obeys_heeding`**: every run keeps to that rule.
* **`Engine.dead_run_begins_nothing`**: what a run asks once its token is dead, and which work it may still begin.
* **`Mailing.sent_when_dead`**: a run that begins such work.
-/

namespace Runbook

/-- A call that a run makes whatever its token says: it closes what is open, or asks for a name. -/
def Call.isUnguarded : Call → Bool
  | updateExecution .. | updateStepRun .. | closeHttp | freshId => true
  | _ => false

/-- A call that a run makes before its execution is open. -/
def Call.isOpening : Call → Bool
  | getWorkflow .. | createExecution _ => true
  | _ => false

namespace Request

/-- A request that a run makes only if its token is alive. -/
def isGuarded : Request Call → Bool
  | call c limit => limit.isSome || !(c.isUnguarded || c.isOpening)
  | awaitCancel _ => true
  | _ => false

/-- A request that a run makes before its execution is open. -/
def isOpening : Request Call → Bool
  | call c _ => c.isOpening
  | _ => false

end Request

/-! ## The rule -/

/-- How a run stands to its token: it has not asked for its execution yet, it does not know, or it has just found the token
alive. -/
inductive Stand where
  | outside
  | unsure
  | sure
  deriving DecidableEq

namespace Stand

/-- What may be asked. -/
def allows (σ : Stand) (q : Request Call) : Prop := (q.isGuarded → σ = sure) ∧ (q.isOpening → σ = outside)

/-- How a run stands after it has found its token so. -/
def ofCheck : Except Failure Unit → Stand
  | .ok _ => sure
  | .error _ => unsure

/-- How a run stands after an exchange. To read the clock takes no time, everything else may. -/
def after : Stand → Exchange (Request Call) (Request.Reply Call.Answer) → Stand
  | σ, ⟨.now, _⟩ => σ
  | _, ⟨.token, v⟩ => ofCheck (TokenView.check v)
  | outside, ⟨.call (.getWorkflow ..) _, _⟩ => outside
  | _, _ => unsure

end Stand

/-- The rule by which runs heed their token. -/
def heeding : Rule (Request Call) (Request.Reply Call.Answer) (Except Failure Execution) where
  State := Stand
  allows := Stand.allows
  after := Stand.after
  ends _ _ := True

namespace Stand

variable {σ : Stand} {t t' : Course} {x : Exchange (Request Call) (Request.Reply Call.Answer)}

theorem ofCheck_eq_sure {r : Except Failure Unit} (h : ofCheck r = sure) : r = .ok () := by
  cases r with
  | ok u => rfl
  | error f => cases h

theorem ofCheck_ne_outside (r : Except Failure Unit) : ofCheck r ≠ outside := by
  cases r <;> exact nofun

/-- The stand of a run that has asked for its execution, after an exchange other than a look at the clock. -/
theorem after_eq (x : Exchange (Request Call) (Request.Reply Call.Answer)) (hσ : σ ≠ outside) :
    σ.after x = unsure.after x ∨ (∃ n, x = ⟨.now, n⟩) := by
  obtain ⟨op, r⟩ := x
  cases op with
  | now => exact .inr ⟨r, rfl⟩
  | call c limit =>
    cases c with
    | getWorkflow => cases σ <;> first | exact .inl rfl | exact absurd rfl hσ
    | _ => exact .inl rfl
  | _ => exact .inl rfl

theorem unsure_after_ne_outside : unsure.after x ≠ outside := by
  obtain ⟨op, r⟩ := x
  have hunsure : unsure ≠ outside := nofun
  cases op with
  | token => exact ofCheck_ne_outside _
  | call c limit => cases c <;> exact hunsure
  | now | openToken | awaitCancel | enlist | delist => exact hunsure

theorem after_ne_outside (hσ : σ ≠ outside) : σ.after x ≠ outside := by
  rcases after_eq x hσ with h | ⟨n, rfl⟩
  · rw [h]
    exact unsure_after_ne_outside
  · exact hσ

theorem stateAfter_ne_outside (hσ : σ ≠ outside) (t : Course) : heeding.stateAfter σ t ≠ outside := by
  induction t generalizing σ with
  | nil => exact hσ
  | cons x t ih => exact ih (after_ne_outside hσ)

/-- What is allowed to a run that does not know is allowed to one that does. -/
theorem allows_of_unsure (hσ : σ ≠ outside) (h : heeding.Allows unsure t) : heeding.Allows σ t := by
  induction t generalizing σ with
  | nil => trivial
  | cons x t ih =>
    obtain ⟨⟨hguarded, hopening⟩, hrest⟩ := h
    refine ⟨⟨fun hg => absurd (hguarded hg) nofun, fun ho => absurd (hopening ho) nofun⟩, ?_⟩
    rcases after_eq x hσ with hx | ⟨n, rfl⟩
    · have hstate : heeding.after σ x = heeding.after unsure x := hx
      rw [hstate]
      exact hrest
    · exact ih hσ hrest

/-- Courses one after the other, the second from any stand. -/
theorem allows_append (hσ : σ ≠ outside) (h : heeding.Allows σ t) (h' : heeding.Allows unsure t') :
    heeding.Allows σ (t ++ t') :=
  Rule.allows_append.mpr ⟨h, allows_of_unsure (stateAfter_ne_outside hσ t) h'⟩

theorem allows_now (n : Binary64) : heeding.Allows σ (⟨.now, n⟩ :: t) ↔ heeding.Allows σ t :=
  and_iff_right ⟨nofun, nofun⟩

theorem allows_token (v : TokenView) : heeding.Allows σ (⟨.token, v⟩ :: t) ↔ heeding.Allows (ofCheck v.check) t :=
  and_iff_right ⟨nofun, nofun⟩

theorem allows_unguarded {c : Call} (hc : c.isUnguarded) (r : Except Failure c.Answer) :
    heeding.Allows σ [⟨.call c none, r⟩] := by
  refine ⟨⟨?_, ?_⟩, trivial⟩
  · intro hg
    simp only [Request.isGuarded, Option.isSome_none, hc, Bool.true_or, Bool.not_true, Bool.or_false] at hg
    cases hg
  · intro ho
    cases c <;> first | exact absurd hc Bool.false_ne_true | exact absurd ho Bool.false_ne_true

end Stand

/-! ## Runs keep to the rule -/

section Parts

variable {α β : Type}

/-- A part of a run that heeds the token however it stands to it, once the run has asked for its execution. -/
structure Run.Heeds (m : Run α) : Prop where
  allows {vs vs' : Variables} {t : Course} {r : Except Failure α} : m.Leads vs t r vs' → heeding.Allows Stand.unsure t

/-- A part that heeds the token in the same way, without variables. -/
structure Attempt.Heeds (a : Attempt Call Call.Answer α) : Prop where
  allows {t : Course} {r : Except Failure α} : a.run.Leads t r → heeding.Allows Stand.unsure t

theorem Stand.unsure_ne_outside : Stand.unsure ≠ Stand.outside := nofun

namespace Run.Heeds

theorem bind {m : Run α} {f : α → Run β} (hm : m.Heeds) (hf : ∀ x, (f x).Heeds) : (m >>= f).Heeds where
  allows h := by
    obtain ⟨e, h, -⟩ | ⟨x, vs₁, t₁, t₂, h₁, h₂, rfl⟩ := Run.leads_bind.mp h
    · exact hm.allows h
    · exact Stand.allows_append Stand.unsure_ne_outside (hm.allows h₁) ((hf x).allows h₂)

theorem liftExcept {x : Except Failure α} : (liftM x : Run α).Heeds where
  allows h := by
    obtain ⟨rfl, -, -⟩ := Run.leads_liftExcept.mp h
    trivial

theorem setVariable {name : String} {v : Value} : (Run.setVariable name v).Heeds where
  allows h := by
    obtain ⟨rfl, -, -⟩ := Run.leads_setVariable.mp h
    trivial

theorem now : Run.now.Heeds where
  allows h := by
    obtain ⟨n, rfl, -, -⟩ := Run.leads_now.mp h
    exact (Stand.allows_now n).mpr trivial

theorem call {c : Call} (hc : c.isUnguarded) : (Run.call c).Heeds where
  allows h := by
    obtain ⟨rfl, -⟩ := Run.leads_call.mp h
    exact Stand.allows_unguarded hc _

theorem attempt {a : Attempt Call Call.Answer α} (ha : Attempt.Heeds a) : (Run.attempt a).Heeds where
  allows h := ha.allows (Run.leads_attempt.mp h).1

end Run.Heeds

namespace Token

/-- A request that is made right after a look that has found the token alive. -/
theorem allows_looked {v : TokenView} {q : Request Call} {x : q.Reply Call.Answer} {t : Course} (hv : v.check = .ok ())
    (hq : q.isOpening = false) (ht : heeding.Allows Stand.unsure t) :
    heeding.Allows Stand.unsure (⟨.token, v⟩ :: ⟨q, x⟩ :: t) := by
  rw [Stand.allows_token, hv]
  refine ⟨⟨fun _ => rfl, fun ho => ?_⟩, ?_⟩
  · exact absurd (hq.symm.trans ho) Bool.false_ne_true
  · exact Stand.allows_of_unsure (Stand.after_ne_outside nofun) ht

theorem guard_heeds {c : Call} (hc : c.isOpening = false) : Attempt.Heeds (Token.guard c) where
  allows h := by
    obtain ⟨v, ⟨f, -, rfl, -⟩ | ⟨hv, ⟨f, rfl, -⟩ | ⟨a, v', rfl, -⟩⟩⟩ := Token.leads_guard h
    · exact (Stand.allows_token v).mpr trivial
    · exact allows_looked hv hc trivial
    · exact allows_looked hv hc ((Stand.allows_token v').mpr trivial)

/-- A wait is bounded by a look that has found the token alive. -/
theorem leads_sleep {seconds : Binary64} {t : Course} {r : Except Failure Unit}
    (h : (Token.sleep seconds : Attempt Call Call.Answer Unit).run.Leads t r) :
    ∃ v : TokenView, (∃ f, v.check = .error f ∧ t = [⟨.token, v⟩] ∧ r = .error f) ∨ v.check = .ok () ∧
      ∃ (limit : Binary64) (x : Except Failure Bool) (t' : Course), t = ⟨.token, v⟩ :: ⟨.awaitCancel limit, x⟩ :: t' ∧
        ((t' = [] ∧ ∃ f, r = .error f) ∨ ∃ v' : TokenView, t' = [⟨.token, v'⟩] ∧ r = v'.check) := by
  unfold Token.sleep at h
  obtain ⟨e, h₁, rfl⟩ | ⟨v, t₁, t₂, h₁, h₂, rfl⟩ := Attempt.leads_bind.mp h
  · obtain ⟨v, e, -⟩ := leads_view.mp h₁
    cases e
  obtain ⟨_, ⟨⟩, rfl⟩ := leads_view.mp h₁
  refine ⟨v, ?_⟩
  obtain ⟨f, h₃, rfl⟩ | ⟨⟨⟩, t₃, t₄, h₃, h₄, rfl⟩ := Attempt.leads_bind.mp h₂
  · obtain ⟨rfl, hv⟩ := Attempt.leads_liftExcept.mp h₃
    exact .inl ⟨f, hv.symm, rfl, rfl⟩
  obtain ⟨rfl, hv⟩ := Attempt.leads_liftExcept.mp h₃
  refine .inr ⟨hv.symm, ?_⟩
  extract_lets limit goOn at h₄
  obtain ⟨f, h₅, rfl⟩ | ⟨cancelled, t₅, t₆, h₅, h₆, rfl⟩ := Attempt.leads_bind.mp h₄
  · obtain rfl := Program.leads_request.mp h₅
    exact ⟨limit, _, [], rfl, .inl ⟨rfl, f, rfl⟩⟩
  obtain rfl := Program.leads_request.mp h₅
  refine ⟨limit, .ok cancelled, t₆, rfl, ?_⟩
  split at h₆
  · obtain ⟨f, h₇, rfl⟩ | ⟨⟨⟩, t₇, t₈, h₇, h₈, rfl⟩ := Attempt.leads_bind.mp h₆
    · obtain ⟨rfl, -⟩ := (Attempt.leads_liftExcept (x := .error _)).mp h₇
      exact .inl ⟨rfl, f, rfl⟩
    · obtain ⟨-, ⟨⟩⟩ := (Attempt.leads_liftExcept (x := .error _)).mp h₇
  · obtain ⟨v', rfl, rfl⟩ := leads_check.mp h₆
    exact .inr ⟨v', rfl, rfl⟩

theorem sleep_heeds {seconds : Binary64} : Attempt.Heeds (Token.sleep seconds : Attempt Call Call.Answer Unit) where
  allows h := by
    obtain ⟨v, ⟨f, -, rfl, -⟩ | ⟨hv, limit, x, t', rfl, ⟨rfl, -⟩ | ⟨v', rfl, -⟩⟩⟩ := leads_sleep h
    · exact (Stand.allows_token v).mpr trivial
    · exact allows_looked hv rfl trivial
    · exact allows_looked hv rfl ((Stand.allows_token v').mpr trivial)

end Token

theorem Run.guarded_heeds {c : Call} (hc : c.isOpening = false) : (Run.guarded c).Heeds :=
  .attempt (Token.guard_heeds hc)

theorem Action.perform_heeds (a : Action) (registry : Registry) (sender : String) (actor : Actor) :
    (a.perform registry sender actor).Heeds := by
  cases a with
  | sendEmail => exact Run.guarded_heeds rfl
  | createRecord table data =>
    exact .bind .liftExcept fun _ => .bind (.call rfl) fun _ => .bind .now fun _ => Run.guarded_heeds rfl
  | updateRecord table record data =>
    exact .bind .liftExcept fun _ => .bind .now fun _ => .bind (Run.guarded_heeds rfl) fun _ => .liftExcept
  | sendNotification => exact Run.guarded_heeds rfl

theorem Webhook.run_heeds (options : WebhookOptions) (w : Webhook) : (w.run options).Heeds := by
  rw [Webhook.run_eq]
  refine .bind .liftExcept fun _ => .bind .liftExcept fun content => ⟨fun h => ?_⟩
  obtain ⟨-, v, request, t', x, a, rfl, hg, -⟩ := Webhook.leads_exchange h
  have hguard : heeding.Allows Stand.unsure t' := (Token.guard_heeds rfl).allows hg
  rw [List.cons_append, Stand.allows_token]
  refine Stand.allows_of_unsure (Stand.ofCheck_ne_outside _) ?_
  exact Stand.allows_append Stand.unsure_ne_outside hguard (Stand.allows_unguarded (c := .closeHttp) rfl a)

end Parts

namespace Engine

variable {g : Engine} {o : Order} {e : Opened} {part : Part} {path : StepPath} {vs vs' : Variables} {t : Course}
  {r : Except Failure Unit}

theorem plain_heeds {task : Task} (hp : task.isPlain) : (g.execute e path task).Heeds := by
  match task with
  | .condition at_ operator expected =>
    refine ⟨fun h => ?_⟩
    rw [(leads_compare h).1]
    trivial
  | .action a => exact .bind .liftExcept fun _ => a.perform_heeds ..
  | .delay milliseconds => exact .attempt Token.sleep_heeds
  | .webhook w => exact .bind (w.run_heeds g.webhook) fun _ => .setVariable

/-- How a run stands to its token where a part begins: a step is taken right after a look. -/
def Part.stand : Part → Stand
  | .step .. => .sure
  | _ => .unsure

/-- **A walk heeds the token.** -/
theorem Walk.heeds (h : Walk g e part vs t r vs') : heeding.Allows part.stand t := by
  induction h with
  | finished => trivial
  | stopped => exact (Stand.allows_token _).mpr trivial
  | fails hv _ ih =>
    rw [Stand.allows_token, hv]
    exact ih
  | goesOn hv _ _ ih ih' =>
    rw [List.cons_append, Stand.allows_token, hv]
    exact Stand.allows_append nofun ih ih'
  | refused =>
    refine (Stand.allows_now _).mpr ?_
    exact ⟨⟨fun _ => rfl, nofun⟩, trivial⟩
  | recorded _ _ ih =>
    rw [List.cons_append, Stand.allows_now]
    refine ⟨⟨fun _ => rfl, nofun⟩, ?_⟩
    refine Stand.allows_append Stand.unsure_ne_outside ih ?_
    exact (Stand.allows_now _).mpr (Stand.allows_unguarded rfl _)
  | unknown => trivial
  | plain hp h => exact (plain_heeds hp).allows h
  | unlisted => trivial
  | looped _ _ ih => exact ih
  | ended => trivial
  | broken _ ih => exact ih
  | again _ _ ih ih' => exact Stand.allows_append Stand.unsure_ne_outside ih ih'

theorem body_heeds (stored : StoredWorkflow) : (g.body e stored).Heeds where
  allows h := by
    obtain ⟨f, -, rfl, -, -⟩ | ⟨w, -, h⟩ := leads_body h
    · trivial
    · exact (walk_of_leads _ _ _ _ h).heeds

theorem Closing.heeds {r' : Except Failure Unit} (h : Closing e r vs t r') : heeding.Allows Stand.unsure t := by
  cases h with
  | unrecorded => exact (Stand.allows_now _).mpr trivial
  | recorded => exact (Stand.allows_now _).mpr (Stand.allows_unguarded rfl _)

theorem opening_heeds {stored : StoredWorkflow} {n : Binary64} {start : ExecutionStart} {id : String} :
    heeding.Allows Stand.outside (g.opening o stored n start id) ∧
      heeding.stateAfter Stand.outside (g.opening o stored n start id) = Stand.unsure := by
  refine ⟨⟨⟨nofun, fun _ => rfl⟩, ⟨nofun, nofun⟩, ⟨nofun, fun _ => rfl⟩, ⟨nofun, nofun⟩, ⟨nofun, nofun⟩, trivial⟩, rfl⟩

theorem Vain.heeds (h : Vain o t) : heeding.Allows Stand.outside t := by
  cases h with
  | unfound => exact ⟨⟨nofun, fun _ => rfl⟩, trivial⟩
  | unbegun => exact ⟨⟨nofun, fun _ => rfl⟩, ⟨nofun, nofun⟩, trivial⟩
  | refused => exact ⟨⟨nofun, fun _ => rfl⟩, ⟨nofun, nofun⟩, ⟨nofun, fun _ => rfl⟩, trivial⟩

/-- **Every run heeds its token.** -/
theorem run_obeys_heeding (g : Engine) (o : Order) : (g.run o).run.Obeys heeding Stand.outside := by
  intro t a h
  refine ⟨?_, trivial⟩
  have hj := journey_of_leads h
  cases hj with
  | unopened hvain => exact (vain_of_leads h hvain).heeds
  | opened hvs hbody hclosing =>
    obtain ⟨hopening, hstate⟩ := opening_heeds
    have hinner := Stand.allows_append Stand.unsure_ne_outside ((body_heeds _).allows hbody) hclosing.heeds
    rw [List.append_assoc]
    refine Rule.allows_append.mpr ⟨hopening, ?_⟩
    rw [hstate]
    exact Stand.allows_append Stand.unsure_ne_outside hinner ⟨⟨nofun, nofun⟩, trivial⟩

end Engine

/-! ## Runs of a schedule -/

/-- The setting of runs of workflows in a world, by who answers their calls. -/
def Engine.setting (World : Type) (perform : (c : Call) → Work World (Except Failure c.Answer)) : Setting where
  World := World
  Call := Call
  Answer := Call.Answer
  perform := perform
  Result := Except Failure Execution

/-- The run makes a request at this moment. -/
def Moment.Makes {S : Setting} (m : Moment S) (i : Nat) (q : Request S.Call) : Prop :=
  ∃ next, m.activity = .run i (.ask q next)

/-- The assistant of the run has been called to do this work, and will begin it unless it is withdrawn. -/
def Moment.IsDue {S : Setting} (m : Moment S) (i : Nat) (task : S.Task) : Prop :=
  (∀ task', m.activity ≠ .aid i task') ∧ m.schedule.assistantOf? i = some (.called (.work task), false)

section Due

variable {S : Setting} {m m' : Moment S} {i : Nat} {q : Request S.Call} {next : q.Reply S.Answer → S.Rest} {task : S.Task}

theorem Moment.In.eq_going {φ : Phase S} {rest : S.Rest} (h : m.In i φ) (hm : m.activity = .run i rest) :
    φ = .going rest := by
  cases h with
  | ready hidle | called hidle | waiting hidle | ended hidle =>
    obtain rfl := hm
    exact absurd rfl hidle
  | going =>
    cases hm
    rfl
  | working => cases hm
  | helped => cases hm

theorem Moment.In.eq_ended {φ : Phase S} {result : Except String S.Result} (h : m.In i φ)
    (hresult : m.schedule.result? i = some result) : φ = .ended result := by
  unfold Schedule.result? at hresult
  cases h with
  | ready _ hstage | going hstage | called _ hstage | working hstage =>
    rw [hstage] at hresult
    cases hresult
  | helped hstage hhelped hserves =>
    rename_i stage
    rw [hstage] at hresult
    cases stage <;> first | exact hhelped.elim | cases hresult
  | waiting hidle hstage hserves =>
    rename_i stage
    rw [hstage] at hresult
    cases stage <;> first | exact hserves.elim | cases hresult
  | ended _ hstage =>
    rw [hstage] at hresult
    cases hresult
    rfl

theorem Moment.In.eq_called {φ : Phase S} (h : m.In i φ) (hm : m.IsDue i task) :
    ∃ (q : Request S.Call) (next : q.Reply S.Answer → S.Rest), φ = .called q next ∧
      S.errandOf? q next = some (.work task) := by
  obtain ⟨haid, hassistant⟩ := hm
  unfold Schedule.assistantOf? at hassistant
  cases h with
  | ready _ hstage | going hstage | working hstage | ended _ hstage =>
    rw [hstage] at hassistant
    cases hassistant
  | called _ hstage herrand =>
    rw [hstage] at hassistant
    cases hassistant
    exact ⟨_, _, rfl, herrand⟩
  | helped => exact absurd rfl (haid _)
  | waiting hidle hstage hserves =>
    rename_i stage
    rw [hstage] at hassistant
    cases stage <;> cases hassistant <;> cases hserves.1

theorem Moment.In.isDue (h : m.In i (.called q next)) (hq : S.errandOf? q next = some (.work task)) : m.IsDue i task := by
  cases h with
  | called hidle hstage herrand =>
    rw [hq] at herrand
    cases herrand
    refine ⟨?_, ?_⟩
    · rintro task' rfl
      exact hidle rfl
    · unfold Schedule.assistantOf?
      rw [hstage]

theorem Setting.reply?_of_errandOf? {errand : Errand S} {s : Schedule S} (h : S.errandOf? q next = some errand) :
    s.reply? i q = none := by
  cases q <;> first | rfl | cases h

theorem Moment.In.activity_eq {rest : S.Rest} (h : m.In i (.going rest)) : m.activity = .run i rest := by
  cases h
  rfl

theorem Moment.In.makes (h : m.In i (.going (.ask q next))) : m.Makes i q := ⟨next, h.activity_eq⟩

theorem Moment.In.isOf {rest : S.Rest} (h : m.In i (.going rest)) : m.activity.IsOf i := by
  cases h
  rfl

theorem Schedule.step_activity_ne_aid (s : Schedule S) (j i : Nat) (interruption : Option String) (task : S.Task) :
    (s.step j interruption).activity ≠ .aid i task := by
  unfold Schedule.step
  split
  · exact nofun
  · dsimp only
    split <;> exact nofun

/-- Work that an assistant takes up was begun before, or due. -/
theorem Schedule.isDue_of_take {s : Schedule S} {x : Signal S} {i : Nat} {task : S.Task}
    (h : (s.take x).activity = .aid i task) :
    (∃ a, s.assistantOf? i = some (.pausing a task, false)) ∨ Moment.IsDue ⟨.idle, s⟩ i task := by
  cases x with
  | step j interruption => exact absurd h (s.step_activity_ne_aid j i interruption task)
  | assist j withdraw =>
    replace h : (s.assist j withdraw).activity = .aid i task := h
    unfold Schedule.assist at h
    cases hassistant : s.assistantOf? j with
    | none =>
      rw [hassistant] at h
      cases h
    | some found =>
      obtain ⟨assistant, withdrawn⟩ := found
      rw [hassistant] at h
      cases assistant with
      | ended rest => cases h
      | called errand =>
        dsimp only at h
        split at h
        · cases h
        rename_i hnot
        obtain ⟨-, rfl⟩ := Bool.or_eq_false_iff.mp (Bool.not_eq_true _ ▸ hnot)
        cases errand with
        | work task' =>
          cases h
          exact .inr ⟨nofun, hassistant⟩
        | watch cancelled =>
          unfold Schedule.beginAssist at h
          dsimp only at h
          split at h <;> cases h
      | pausing a task' =>
        dsimp only at h
        split at h
        · cases h
        rename_i hnot
        obtain ⟨-, rfl⟩ := Bool.or_eq_false_iff.mp (Bool.not_eq_true _ ▸ hnot)
        cases h
        exact .inl ⟨a, hassistant⟩
      | watching a cancelled =>
        dsimp only at h
        split at h <;> cases h
  | release | settle | occur | cancel => cases h

/-- Work that is due is taken up when the assistant is next told to go on. -/
theorem Schedule.take_of_isDue {s : Schedule S} (h : Moment.IsDue ⟨.idle, s⟩ i task) :
    s.take (.assist i false) = ⟨.aid i task, s⟩ := by
  show s.assist i false = _
  unfold Schedule.assist
  rw [h.2]
  rfl

end Due

namespace Engine

variable {World : Type} {perform : (c : Call) → Work World (Except Failure c.Answer)} {g : Engine} {o : Order} {i : Nat}
  {m m' : Moment (setting World perform)}

/-- A run heeds its token from its phase on, and if it takes the token for alive it is. `opened` says that it has asked for
its execution. -/
def Heedful (opened : Prop) (i : Nat) (m : Moment (setting World perform)) : Phase (setting World perform) → Prop
  | .ready rest => ¬ opened ∧ Program.Obeys heeding Stand.outside rest
  | .going rest => ∃ σ : Stand, Program.Obeys heeding σ rest ∧ (opened → σ ≠ .outside) ∧ (σ = .sure → ¬ m.schedule.IsDead i)
  | .called _ next | .waiting _ next =>
    ∃ σ : Stand, (∀ r, Program.Obeys heeding σ (next r)) ∧ (opened → σ ≠ .outside) ∧ σ ≠ .sure
  | .ended _ => True

theorem isGuarded_of_errandOf? {q : Request Call} {next : q.Reply Call.Answer → (setting World perform).Rest}
    {errand : Errand (setting World perform)} (h : (setting World perform).errandOf? q next = some errand) :
    q.isGuarded = true := by
  cases q with
  | call c limit =>
    cases limit with
    | none => cases h
    | some limit => rfl
  | awaitCancel limit => rfl
  | _ => cases h

/-- A request that takes time leaves a run unsure. -/
theorem after_of_reply? {s : Schedule (setting World perform)} {σ : Stand} {q : Request Call} (h : s.reply? i q = none) :
    ∃ σ' : Stand, σ' ≠ .sure ∧ (σ ≠ .outside → σ' ≠ .outside) ∧ ∀ r, σ.after ⟨q, r⟩ = σ' := by
  cases q with
  | call c limit =>
    cases c with
    | getWorkflow =>
      cases σ with
      | outside => exact ⟨.outside, nofun, id, fun _ => rfl⟩
      | unsure => exact ⟨.unsure, nofun, nofun, fun _ => rfl⟩
      | sure => exact ⟨.unsure, nofun, nofun, fun _ => rfl⟩
    | _ => exact ⟨.unsure, nofun, fun _ => nofun, fun _ => by cases σ <;> rfl⟩
  | awaitCancel limit => exact ⟨.unsure, nofun, fun _ => nofun, fun _ => by cases σ <;> rfl⟩
  | _ => cases h

theorem Heedful.reply {opened : Prop} {q : Request Call} {next : q.Reply Call.Answer → Program _ _ _}
    {r : q.Reply Call.Answer} (hin : m.In i (.going (.ask q next))) (hreply : m.schedule.reply? i q = some r)
    (hJ : Heedful opened i m (.going (.ask q next))) : Heedful opened i m.next (.going (next r)) := by
  obtain ⟨σ, hobeys, hopened, hsure⟩ := hJ
  refine ⟨σ.after ⟨q, r⟩, hobeys.next r, fun h => Stand.after_ne_outside (hopened h), ?_⟩
  cases hin with
  | going hactive =>
    cases q with
    | now => exact hsure
    | token =>
      cases hreply
      intro hσ hdead
      exact hdead (Stand.ofCheck_eq_sure hσ)
    | openToken timeout => exact fun h => by cases σ <;> cases h
    | enlist execution workflow tenant => exact fun h => by cases σ <;> cases h
    | delist execution => exact fun h => by cases σ <;> cases h
    | awaitCancel limit => cases hreply
    | call c limit => cases hreply

theorem Heedful.wait {opened : Prop} {q : Request Call} {next : q.Reply Call.Answer → Program _ _ _}
    (hreply : m.schedule.reply? i q = none) (hJ : Heedful opened i m (.going (.ask q next)))
    (m' : Moment (setting World perform)) : Heedful opened i m' (.waiting q next) := by
  obtain ⟨σ, hobeys, hopened, -⟩ := hJ
  obtain ⟨σ', hunsure, houtside, hafter⟩ := after_of_reply? (σ := σ) hreply
  exact ⟨σ', fun r => hafter r ▸ hobeys.next r, fun h => houtside (hopened h), hunsure⟩

/-- **A step of a run** keeps it heedful. -/
theorem Heedful.step {opened : Prop} {φ φ' : Phase (setting World perform)} (hin : m.In i φ) (hmove : Move m m')
    (hstep : φ.Step i m φ') (hJ : Heedful opened i m φ) : Heedful opened i m' φ' := by
  cases hstep with
  | stay hφ =>
    cases φ with
    | going rest => exact absurd rfl (hφ rest)
    | _ => exact hJ
  | begin => exact ⟨.outside, hJ.2, fun h => absurd h hJ.1, nofun⟩
  | drop => trivial
  | reply hreply =>
    rw [hmove.eq_next_of_isOf hin.isOf]
    exact hJ.reply hin hreply
  | call herrand => exact hJ.wait (Setting.reply?_of_errandOf? herrand) m'
  | wait hreply => exact hJ.wait hreply m'
  | start => exact hJ
  | answer r =>
    obtain ⟨σ, hobeys, hopened, hsure⟩ := hJ
    exact ⟨σ, hobeys r, hopened, fun h => absurd h hsure⟩
  | finish => trivial
  | cut => trivial

/-- The moment at which a run has been added to a schedule. -/
def launched (g : Engine) (o : Order) (s : Schedule (setting World perform)) (token : Option Nat) :
    Moment (setting World perform) :=
  ⟨.idle, (s.launch (g.run o).run token).2⟩

/-- A phase that keeps to a rule: what is left of the run does, and what it waits for is allowed. -/
def PhaseObeys (R : Rule (Request Call) (Request.Reply Call.Answer) (Except Failure Execution)) :
    Phase (setting World perform) → Prop
  | .ready rest | .going rest => ∃ σ, Program.Obeys R σ rest
  | .called q next | .waiting q next => ∃ σ, R.allows σ q ∧ ∀ r, Program.Obeys R (R.after σ ⟨q, r⟩) (next r)
  | .ended _ => True

section Launched

variable {s : Schedule (setting World perform)} {token : Option Nat}

/-- **A run** keeps to each rule that its program keeps to, whatever it does and waits for. -/
theorem phase_obeys_of_goes {R : Rule (Request Call) (Request.Reply Call.Answer) (Except Failure Execution)} {σ : R.State}
    (hrun : (g.run o).run.Obeys R σ) (h : (launched g o s token).Goes m) :
    ∃ φ, m.In s.fibers.length φ ∧ PhaseObeys R φ := by
  refine h.phase (J := fun _ => PhaseObeys R) ?_ (s.in_launch _ _) ⟨σ, hrun⟩
  intro m m' φ φ' _ _ _ hstep hJ
  cases hstep with
  | stay | begin | start => exact hJ
  | drop | finish | cut => trivial
  | reply =>
    obtain ⟨σ', hobeys⟩ := hJ
    exact ⟨_, hobeys.next _⟩
  | call | wait =>
    obtain ⟨σ', hobeys⟩ := hJ
    exact ⟨σ', hobeys.allows (obliging { id := .null, tenant := .null } ""), hobeys.next⟩
  | answer r =>
    obtain ⟨σ', -, hobeys⟩ := hJ
    exact ⟨_, hobeys r⟩

/-- **What is left of a run** keeps to each rule that the run keeps to. -/
theorem obeys_of_goes {R : Rule (Request Call) (Request.Reply Call.Answer) (Except Failure Execution)} {σ : R.State}
    (hrun : (g.run o).run.Obeys R σ) (h : (launched g o s token).Goes m) {rest : (setting World perform).Rest}
    (hrest : m.activity = .run s.fibers.length rest) : m.In s.fibers.length (.going rest) ∧ ∃ σ', Program.Obeys R σ' rest := by
  obtain ⟨φ, hin, hobeys⟩ := phase_obeys_of_goes hrun h
  obtain rfl := hin.eq_going hrest
  exact ⟨hin, hobeys⟩

theorem launched_heedful : (launched g o s token).In s.fibers.length (.ready (g.run o).run) ∧
    Heedful False s.fibers.length (launched g o s token) (.ready (g.run o).run) :=
  ⟨s.in_launch _ _, id, run_obeys_heeding g o⟩

/-- A run is heedful at all moments. -/
theorem heedful_of_goes (h : (launched g o s token).Goes m) : ∃ φ, m.In s.fibers.length φ ∧
    Heedful False s.fibers.length m φ :=
  h.phase (fun _ _ _ _ hin hmove _ hstep hJ => hJ.step hin hmove hstep) launched_heedful.1 launched_heedful.2

/-- What a heedful run asks it may ask. -/
theorem Heedful.allows {opened : Prop} {φ : Phase (setting World perform)} {q : Request Call} (hJ : Heedful opened i m φ)
    (hin : m.In i φ) (hq : m.Makes i q) :
    ∃ σ : Stand, σ.allows q ∧ (opened → σ ≠ .outside) ∧ (σ = .sure → ¬ m.schedule.IsDead i) := by
  obtain ⟨next, hnext⟩ := hq
  obtain rfl := hin.eq_going hnext
  obtain ⟨σ, hobeys, hopened, hsure⟩ := hJ
  exact ⟨σ, hobeys.allows (obliging { id := .null, tenant := .null } ""), hopened, hsure⟩

/-- **A dead run asks for nothing guarded.** -/
theorem not_isGuarded_of_dead {q : Request Call} (h : (launched g o s token).Goes m)
    (hdead : m.schedule.IsDead s.fibers.length) (hq : m.Makes s.fibers.length q) : q.isGuarded = false := by
  obtain ⟨φ, hin, hJ⟩ := heedful_of_goes h
  obtain ⟨σ, hallows, -, hsure⟩ := hJ.allows hin hq
  cases hguarded : q.isGuarded with
  | false => rfl
  | true => exact absurd hdead (hsure (hallows.1 hguarded))

/-- A run that has asked for its execution asks for none again, nor for its workflow. -/
theorem not_isOpening_of_created {m₀ : Moment (setting World perform)} {start : ExecutionStart} {limit : Option Binary64}
    {q : Request Call} (h : (launched g o s token).Goes m₀)
    (hcreate : m₀.Makes s.fibers.length (.call (.createExecution start) limit)) (hm : m₀.next.Goes m)
    (hq : m.Makes s.fibers.length q) : q.isOpening = false := by
  obtain ⟨φ₀, hin₀, hJ₀⟩ := heedful_of_goes h
  obtain ⟨next, hnext⟩ := hcreate
  obtain rfl := hin₀.eq_going hnext
  obtain ⟨φ₁, hin₁, hstep⟩ := (Move.next m₀).phase hin₀
  -- From this request on the run does not stand outside.
  have hJ₁ : Heedful True s.fibers.length m₀.next φ₁ := by
    obtain ⟨σ, hobeys, -, -⟩ := hJ₀
    have hafter : ∀ r, Program.Obeys heeding Stand.unsure (next r) := by
      intro r
      have hnext := hobeys.next r
      cases σ <;> exact hnext
    cases hstep with
    | stay hφ => exact absurd rfl (hφ _)
    | reply hreply => cases hreply
    | call herrand => exact ⟨.unsure, hafter, fun _ => nofun, nofun⟩
    | wait hreply => exact ⟨.unsure, hafter, fun _ => nofun, nofun⟩
  obtain ⟨φ, hin, hJ⟩ := hm.phase (fun _ _ _ _ hin hmove _ hstep hJ => Heedful.step hin hmove hstep hJ) hin₁ hJ₁
  obtain ⟨σ, hallows, hopened, -⟩ := hJ.allows hin hq
  cases hopening : q.isOpening with
  | false => rfl
  | true => exact absurd (hallows.2 hopening) (hopened trivial)

/-- Work that is due once the token is dead has been due before. -/
theorem isDue_of_dead {task : (setting World perform).Task} (h : (launched g o s token).Goes m)
    (hdead : m.schedule.IsDead s.fibers.length) (hm : m.Goes m') (hdue : m'.IsDue s.fibers.length task) :
    m.IsDue s.fibers.length task := by
  obtain ⟨φ, hin, -⟩ := heedful_of_goes h
  obtain ⟨φ', hin', -, hcalled⟩ := hm.phase
    (J := fun m' φ' => m.Goes m' ∧ ∀ (q : Request Call) (next : _), φ' = .called q next → φ = .called q next)
    (fun m₁ m₂ φ₁ φ₂ hin₁ hmove hin₂ hstep hJ => by
      obtain ⟨hgoes, hcalled⟩ := hJ
      refine ⟨hgoes.move hmove, ?_⟩
      rintro q next rfl
      cases hstep with
      | stay hφ => exact hcalled q next rfl
      | call herrand =>
        have hfree := not_isGuarded_of_dead (h.trans hgoes) (hgoes.dead hdead) hin₁.makes
        exact absurd ((isGuarded_of_errandOf? herrand).symm.trans hfree) Bool.true_eq_false.mp)
    hin ⟨.refl m, fun _ _ h => h⟩
  obtain ⟨q, next, rfl, herrand⟩ := hin'.eq_called hdue
  obtain rfl := hcalled q next rfl
  exact hin.isDue herrand

/-- Work that is due has been asked for by the run, when its token was alive. -/
theorem asked_of_isDue {task : (setting World perform).Task} (h : (launched g o s token).Goes m)
    (hdue : m.IsDue s.fibers.length task) : ∃ (m₀ : Moment (setting World perform)) (c : Call) (limit : Binary64)
      (next : Except Failure c.Answer → (setting World perform).Rest), (launched g o s token).Goes m₀ ∧ m₀.Goes m ∧
        ¬ m₀.schedule.IsDead s.fibers.length ∧ m₀.activity = .run s.fibers.length (.ask (.call c (some limit)) next) ∧
        task = next <$> perform c := by
  obtain ⟨φ, hin, -, hasked⟩ := h.phase
    (J := fun m φ => (launched g o s token).Goes m ∧ ∀ (q : Request Call) (next : _), φ = .called q next →
      ∃ m₀ : Moment (setting World perform), (launched g o s token).Goes m₀ ∧ m₀.Goes m ∧
        ¬ m₀.schedule.IsDead s.fibers.length ∧ m₀.activity = .run s.fibers.length (.ask q next))
    (fun m₁ m₂ φ₁ φ₂ hin₁ hmove hin₂ hstep hJ => by
      obtain ⟨hgoes, hasked⟩ := hJ
      refine ⟨hgoes.move hmove, ?_⟩
      rintro q next rfl
      cases hstep with
      | stay hφ =>
        obtain ⟨m₀, h₀, h₁, hlive, hact⟩ := hasked q next rfl
        exact ⟨m₀, h₀, h₁.move hmove, hlive, hact⟩
      | call herrand =>
        refine ⟨m₁, hgoes, (Moment.Goes.refl m₁).move hmove, ?_, hin₁.activity_eq⟩
        intro hdead
        have hfree := not_isGuarded_of_dead hgoes hdead hin₁.makes
        exact absurd ((isGuarded_of_errandOf? herrand).symm.trans hfree) Bool.true_eq_false.mp)
    launched_heedful.1 ⟨.refl _, fun _ _ h => nomatch h⟩
  obtain ⟨q, next, rfl, herrand⟩ := hin.eq_called hdue
  obtain ⟨m₀, h₀, h₁, hlive, hact⟩ := hasked q next rfl
  cases q with
  | call c limit =>
    cases limit with
    | none => cases herrand
    | some limit =>
      cases herrand
      exact ⟨m₀, c, limit, next, h₀, h₁, hlive, hact, rfl⟩
  | _ => cases herrand

/-- **A dead run begins nothing.** From the moment on at which its token is cancelled or past its deadline a run waits for
nothing but calls that close what is open, and calls that open its execution if it was not asked for before. The work that its
assistant takes up is work that it had begun, or the one work that was due already at that moment: the run had asked for it when
its token was alive. -/
theorem dead_run_begins_nothing (g : Engine) (o : Order) (s : Schedule (setting World perform)) (token : Option Nat)
    (h : (launched g o s token).Goes m) (hdead : m.schedule.IsDead s.fibers.length) (hm : m.Goes m') :
    (∀ limit, ¬ m'.Makes s.fibers.length (.awaitCancel limit)) ∧
    (∀ c limit, m'.Makes s.fibers.length (.call c limit) → limit = none ∧ (c.isUnguarded ∨ c.isOpening)) ∧
    (∀ m₀ start limit, (launched g o s token).Goes m₀ → m₀.Makes s.fibers.length (.call (.createExecution start) limit) →
      m₀.next.Goes m → ∀ c limit, m'.Makes s.fibers.length (.call c limit) → c.isUnguarded) ∧
    (∀ s' x task, m' = ⟨.idle, s'⟩ → (s'.take x).activity = .aid s.fibers.length task →
      (∃ a, s'.assistantOf? s.fibers.length = some (.pausing a task, false)) ∨ m.IsDue s.fibers.length task ∧
      ∃ (m₀ : Moment (setting World perform)) (c : Call) (limit : Binary64)
        (next : Except Failure c.Answer → (setting World perform).Rest), (launched g o s token).Goes m₀ ∧ m₀.Goes m ∧
          ¬ m₀.schedule.IsDead s.fibers.length ∧ m₀.activity = .run s.fibers.length (.ask (.call c (some limit)) next) ∧
          task = next <$> perform c) := by
  have hfree : ∀ q, m'.Makes s.fibers.length q → q.isGuarded = false := fun q hq =>
    not_isGuarded_of_dead (h.trans hm) (hm.dead hdead) hq
  have hcall : ∀ c limit, m'.Makes s.fibers.length (.call c limit) → limit = none ∧ (c.isUnguarded ∨ c.isOpening) := by
    intro c limit hq
    have hq := hfree _ hq
    cases limit with
    | some limit => cases hq
    | none =>
      refine ⟨rfl, ?_⟩
      rw [← Bool.or_eq_true]
      exact Bool.not_eq_eq_eq_not.mp hq
  refine ⟨fun limit hq => ?_, hcall, ?_, ?_⟩
  · cases hfree _ hq
  · intro m₀ start limit₀ h₀ hcreate hgoes c limit hq
    have hopened : c.isOpening = false := not_isOpening_of_created h₀ hcreate (hgoes.trans hm) hq
    obtain ⟨-, hunguarded | hopening⟩ := hcall c limit hq
    · exact hunguarded
    · rw [hopened] at hopening
      cases hopening
  · rintro s' x task rfl htake
    obtain hbegun | hdue := Schedule.isDue_of_take htake
    · exact .inl hbegun
    · have hbefore := isDue_of_dead h hdead hm hdue
      exact .inr ⟨hbefore, asked_of_isDue h hbefore⟩

end Launched

end Engine

/-! ## Mail after the end -/

namespace Mailing

/-- A workflow with this step only. -/
def stored : StoredWorkflow := { id := .str "workflow", tenant := .str "tenant", steps := .list [step] }

/-- A world of emails, in which every other call is done as asked. -/
def posting : (c : Call) → Work (List Email) (Except Failure c.Answer)
  | .sendEmail m => do
    Work.change (· ++ [m])
    return .ok ()
  | c => return c.obliged stored ""

/-- An engine whose runs have a deadline, and so send mail with a limit. -/
def punctual : Engine := { timeout := some 100 }

/-- The beginning of the mailing. -/
def beginning : Moment (Engine.setting (List Email) posting) := Engine.launched punctual order { world := [] } none

/-- The mailing when it has asked for its email and its token has been cancelled, before the email is begun. -/
def stopped : Schedule (Engine.setting (List Email) posting) :=
  (beginning.schedule.handle (.step 0 none)).handle (.cancel 0 "stop")

theorem goes_stopped : beginning.Goes ⟨.idle, stopped⟩ := (Schedule.goes_handle _ _).trans (Schedule.goes_handle _ _)

theorem body_stored (g : Engine) (e : Opened) : g.body e stored = g.runAll e .top [stepRead] := by
  have hread : Step.readAll g.loopLimit [step] = .ok [stepRead] :=
    Step.readAll_cons_of_ok (Step.read_of_bodiless rfl rfl rfl rfl rfl rfl) (Step.readAll_nil _)
  refine Engine.body_of_load (w := ⟨"workflow", "tenant", "", [], [stepRead]⟩) ?_
  unfold Workflow.load
  show Step.readAll g.loopLimit [step] >>= _ = _
  rw [hread]
  rfl

/-- The mailing when its execution is open. -/
def opened : Schedule (Engine.setting (List Email) posting) :=
  ((beginning.schedule.modifyFiber 0 fun f => { f with stage := .active }).openToken 0 punctual.timeout).enlist 0
    "execution" "workflow" "tenant"

/-- Up to its first wait the mailing can be followed once its workflow is read. -/
theorem stopped_eq :
    let e : Opened := ⟨"execution", order.actor, Clock.stamp (Binary64.zero false)⟩
    stopped = (opened.drive 0 (order.afterOpening e [] (do
      let result ← Run.observe (punctual.runAll e .top [stepRead])
      Engine.close e (.ofResult result)
      result)).run).cancelToken 0 "stop" := by
  intro e
  rw [← body_stored]
  rfl

theorem stopped_isDead : stopped.IsDead 0 := by
  rw [stopped_eq]
  refine TokenView.check_ne_ok.mpr (.inl ?_)
  decide +kernel

/-- An email that is not begun when the token is cancelled may be sent all the same. -/
theorem sent_when_dead :
    beginning.Goes ⟨.idle, stopped⟩ ∧ stopped.IsDead 0 ∧ stopped.world.map (·.subject) = [] ∧
      Moment.Goes ⟨.idle, stopped⟩ ⟨.idle, stopped.handle (.assist 0 false)⟩ ∧
      (stopped.handle (.assist 0 false)).world.map (·.subject) = ["News"] := by
  refine ⟨goes_stopped, stopped_isDead, ?_, Schedule.goes_handle _ _, ?_⟩
  · rw [stopped_eq]
    decide +kernel
  · rw [stopped_eq]
    decide +kernel

/-- Whether an assistant waits to begin a task that it was called for. -/
def isCalled : Option (Assistant (Engine.setting (List Email) posting) × Bool) → Bool
  | some (.called (.work _), false) => true
  | _ => false

theorem exists_of_isCalled {a : Option (Assistant (Engine.setting (List Email) posting) × Bool)} (h : isCalled a = true) :
    ∃ task, a = some (.called (.work task), false) := by
  unfold isCalled at h
  split at h
  · exact ⟨_, rfl⟩
  · cases h

theorem stopped_isDue : ∃ task, Moment.IsDue ⟨.idle, stopped⟩ 0 task := by
  have hcalled : isCalled (stopped.assistantOf? 0) = true := by
    rw [stopped_eq]
    decide +kernel
  obtain ⟨task, htask⟩ := exists_of_isCalled hcalled
  exact ⟨task, nofun, htask⟩

/-- The email has been asked for when the token was alive. -/
theorem asked_when_alive : ∃ (task : (Engine.setting (List Email) posting).Task) (m₀ : Moment (Engine.setting (List Email) posting)),
    stopped.take (.assist 0 false) = ⟨.aid 0 task, stopped⟩ ∧ beginning.Goes m₀ ∧ m₀.Goes ⟨.idle, stopped⟩ ∧
      ¬ m₀.schedule.IsDead 0 := by
  obtain ⟨task, hdue⟩ := stopped_isDue
  have htake := Schedule.take_of_isDue hdue
  obtain ⟨-, -, -, hbegins⟩ :=
    Engine.dead_run_begins_nothing punctual order { world := [] } none goes_stopped stopped_isDead (.refl _)
  obtain ⟨a, ha⟩ | ⟨-, m₀, c, limit, next, h₀, hm₀, hlive, -⟩ :=
    hbegins stopped (.assist 0 false) task rfl (congrArg Moment.activity htake)
  · cases hdue.2.symm.trans ha
  · exact ⟨task, m₀, htake, h₀, hm₀, hlive⟩

end Mailing

end Runbook
