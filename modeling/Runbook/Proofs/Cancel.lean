import Runbook.Proofs.Spared

/-!
# Runs that are cancelled

A cancellation only marks the token of a run. The run finds it at its next look at the token, and from then on a failure is in
flight: the run closes what is open and comes to that failure, or to one that it meets on the way. It looks before every step,
and before and after every call and every wait that the token bounds. A run that does not look again, because its last step is
being recorded or its execution is being closed, ends as if nobody had cancelled it.

* `Flight`: what is in flight in a run; `failing`: the rule by which runs come to that.
* **`Engine.run_obeys_failing`**: every run keeps to that rule.
* **`Engine.cancelled_run_fails_if_it_looks`**: what becomes of a run that is cancelled, with and without another look.
* **`Checking.completed_when_cancelled`**: a run that does not look again.
-/

namespace Runbook

/-! ## The rule -/

/-- A call that reaches outside the records of the engine. -/
def Call.reachesOut : Call → Bool
  | sendEmail _ | notify .. | insert .. | update .. | http _ => true
  | _ => false

/-- A request that the token bounds: a run looks at its token before it, and again when it has been answered. -/
def Request.isBounded : Request Call → Bool
  | call c _ => c.reachesOut
  | awaitCancel _ => true
  | _ => false

/-- What is in flight in a run: nothing, a request that the token bounds and on which a look or a failure is to follow, or a
failure. -/
inductive Flight where
  | clear
  | bounded
  | failure (f : Failure)

namespace Flight

variable {α β : Type} {σ : Flight} {x : Exchange (Request Call) (Request.Reply Call.Answer)}

/-- What is in flight after a look at the token. -/
def ofCheck : Except Failure Unit → Flight
  | .ok _ => clear
  | .error f => failure f

/-- What is in flight after an exchange. A look at the token decides it; any other request that fails puts its own failure in the
place of one that is in flight. -/
def after : Flight → Exchange (Request Call) (Request.Reply Call.Answer) → Flight
  | _, ⟨.token, v⟩ => ofCheck (TokenView.check v)
  | clear, x => if x.op.isBounded then bounded else clear
  | bounded, _ => bounded
  | failure f, x => failure (x.failure?.getD f)

/-- What a part that leaves this in flight comes to. -/
def Tells : Flight → Except Failure α → Prop
  | clear, _ => True
  | bounded, r => ∃ f, r = .error f
  | failure f, r => r = .error f

theorem eq_clear {a : α} (h : σ.Tells (.ok a : Except Failure α)) : σ = clear := by
  cases σ with
  | clear => rfl
  | bounded =>
    obtain ⟨f, ⟨⟩⟩ := h
  | failure f => cases h

theorem Tells.exists_error {r : Except Failure α} (h : σ.Tells r) (hσ : σ ≠ clear) : ∃ f, r = .error f := by
  cases σ with
  | clear => exact absurd rfl hσ
  | bounded => exact h
  | failure f => exact ⟨f, h⟩

theorem Tells.bind {r : Except Failure α} (h : σ.Tells r) (k : α → Except Failure β) : σ.Tells (r.bind k) := by
  cases σ with
  | clear => trivial
  | bounded =>
    obtain ⟨f, rfl⟩ := h
    exact ⟨f, rfl⟩
  | failure f =>
    obtain rfl : r = .error f := h
    rfl

theorem Tells.map {r : Except Failure α} (h : σ.Tells r) (k : α → β) : σ.Tells (r.map k) := by
  have hmap : r.map k = r.bind fun a => .ok (k a) := by
    cases r <;> rfl
  rw [hmap]
  exact h.bind _

/-- A look at the end of a part decides what it comes to. -/
theorem tells_ofCheck (c : Except Failure Unit) : (ofCheck c).Tells c := by
  cases c with
  | ok u => trivial
  | error f => rfl

theorem after_now (n : Binary64) : σ.after ⟨.now, n⟩ = σ := by
  cases σ <;> rfl

/-- Whatever is asked when nothing is in flight, a failure may follow on the answer. -/
theorem tells_after {f : Failure} (hx : x.op ≠ .token) : (clear.after x).Tells (.error f : Except Failure α) := by
  obtain ⟨op, r⟩ := x
  have hafter : clear.after ⟨op, r⟩ = if op.isBounded then bounded else clear := by
    cases op <;> first | rfl | exact absurd rfl hx
  rw [hafter]
  split
  · exact ⟨f, rfl⟩
  · trivial

section Call

variable {c : Call} {limit : Option Binary64} {a : Except Failure c.Answer}

theorem after_call (hc : c.reachesOut = false) : clear.after ⟨.call c limit, a⟩ = clear := by
  show (if c.reachesOut then bounded else clear) = clear
  rw [hc]
  rfl

/-- A call that the token does not bound keeps what is in flight, or fails itself. -/
theorem Tells.call {k : c.Answer → Except Failure α} (hc : c.reachesOut = false) (h : ∀ x, σ.Tells (k x)) :
    (σ.after ⟨.call c limit, a⟩).Tells (a.bind k) := by
  cases σ with
  | clear =>
    rw [after_call hc]
    trivial
  | bounded =>
    cases a with
    | error f => exact ⟨f, rfl⟩
    | ok x => exact h x
  | failure f =>
    cases a with
    | error f' => rfl
    | ok x => exact h x

end Call

theorem after_bounded {q : Request Call} {r : q.Reply Call.Answer} (hq : q.isBounded) : σ.after ⟨q, r⟩ ≠ clear := by
  cases q with
  | call c limit =>
    cases σ with
    | clear =>
      have hafter : clear.after ⟨.call c limit, r⟩ = bounded := if_pos hq
      rw [hafter]
      exact nofun
    | _ => exact nofun
  | awaitCancel limit => cases σ <;> exact nofun
  | _ => cases hq

/-- Only a look that finds the token alive clears what is in flight. -/
theorem after_ne_clear (hσ : σ ≠ clear) (hx : ∀ v : TokenView, x = ⟨.token, v⟩ → v.check ≠ .ok ()) : σ.after x ≠ clear := by
  obtain ⟨op, r⟩ := x
  cases op with
  | token =>
    intro h
    have hv := hx r rfl
    have hclear : ofCheck (TokenView.check r) = clear := h
    cases hc : TokenView.check r with
    | ok u => exact hv hc
    | error f =>
      rw [hc] at hclear
      cases hclear
  | _ => cases σ <;> first | exact absurd rfl hσ | exact nofun

end Flight

/-- A request that records the end of an execution records an outcome that is in order with this in flight. -/
def Request.RecordsWith (σ : Flight) : Request Call → Prop
  | .call (.updateExecution _ _ last) _ => ∃ r : Except Failure Unit, σ.Tells r ∧ last.outcome = .ofResult r
  | _ => True

/-- The rule by which runs come to what is in flight. -/
def failing : Rule (Request Call) (Request.Reply Call.Answer) (Except Failure Execution) where
  State := Flight
  allows := Request.RecordsWith
  after := Flight.after
  ends σ result := σ ≠ .clear → ∃ f, result = .error f

/-- What is in flight after a course that begins with nothing. -/
def Course.inFlight (t : Course) : Flight := t.foldl Flight.after .clear

namespace Course

variable {α : Type} {t t' : Course} {f : Failure}

theorem inFlight_alive {v : TokenView} (hv : v.check = .ok ()) (t : Course) : inFlight (⟨.token, v⟩ :: t) = inFlight t := by
  show t.foldl Flight.after (.ofCheck v.check) = _
  rw [hv]
  rfl

theorem tells_dead {v : TokenView} (hv : v.check = .error f) : (inFlight [⟨.token, v⟩]).Tells (.error f : Except Failure α) := by
  show (Flight.ofCheck v.check).Tells _
  rw [hv]
  rfl

theorem inFlight_append (h : inFlight t = .clear) : inFlight (t ++ t') = inFlight t' := by
  unfold inFlight at h ⊢
  rw [List.foldl_append, h]

theorem inFlight_concat (x : Exchange (Request Call) (Request.Reply Call.Answer)) : inFlight (t ++ [x]) = t.inFlight.after x := by
  unfold inFlight
  rw [List.foldl_append]
  rfl

theorem inFlight_around (h : inFlight t = .clear) (x y : Exchange (Request Call) (Request.Reply Call.Answer)) :
    inFlight (t ++ t' ++ [x, y]) = (t'.inFlight.after x).after y := by
  rw [List.append_assoc, inFlight_append h]
  unfold inFlight
  rw [List.foldl_append]
  rfl

end Course

/-! ## Runs keep to the rule -/

section Parts

variable {α β : Type}

/-- A part of a run that comes to what it leaves in flight. -/
structure Run.Relays (m : Run α) : Prop where
  tells {vs vs' : Variables} {t : Course} {r : Except Failure α} : m.Leads vs t r vs' → t.inFlight.Tells r

/-- The same without variables. -/
structure Attempt.Relays (a : Attempt Call Call.Answer α) : Prop where
  tells {t : Course} {r : Except Failure α} : a.run.Leads t r → t.inFlight.Tells r

namespace Run.Relays

theorem bind {m : Run α} {k : α → Run β} (hm : m.Relays) (hk : ∀ x, (k x).Relays) : (m >>= k).Relays where
  tells h := by
    obtain ⟨e, h₁, rfl⟩ | ⟨x, vs₁, t₁, t₂, h₁, h₂, rfl⟩ := Run.leads_bind.mp h
    · exact (hm.tells h₁).bind fun _ => .error e
    · rw [Course.inFlight_append (Flight.eq_clear (hm.tells h₁))]
      exact (hk x).tells h₂

theorem liftExcept {x : Except Failure α} : (liftM x : Run α).Relays where
  tells h := by
    obtain ⟨rfl, -, -⟩ := Run.leads_liftExcept.mp h
    trivial

theorem setVariable {name : String} {v : Value} : (Run.setVariable name v).Relays where
  tells h := by
    obtain ⟨rfl, -, -⟩ := Run.leads_setVariable.mp h
    trivial

theorem now : Run.now.Relays where
  tells h := by
    obtain ⟨n, rfl, -, -⟩ := Run.leads_now.mp h
    trivial

theorem call {c : Call} (hc : c.reachesOut = false) : (Run.call c).Relays where
  tells {vs vs' t r} h := by
    obtain ⟨rfl, -⟩ := Run.leads_call.mp h
    have hafter : Course.inFlight [⟨.call c none, r⟩] = .clear := Flight.after_call hc
    rw [hafter]
    trivial

theorem attempt {a : Attempt Call Call.Answer α} (ha : Attempt.Relays a) : (Run.attempt a).Relays where
  tells h := ha.tells (Run.leads_attempt.mp h).1

end Run.Relays

namespace Token

theorem guard_relays {c : Call} : Attempt.Relays (Token.guard c) where
  tells h := by
    obtain ⟨v, ⟨f, hv, rfl, rfl⟩ | ⟨hv, ⟨f, rfl, rfl⟩ | ⟨a, v', rfl, rfl⟩⟩⟩ := Token.leads_guard h
    · exact Course.tells_dead hv
    · rw [Course.inFlight_alive hv]
      exact Flight.tells_after (x := ⟨.call c v.remaining, .error f⟩) nofun
    · rw [Course.inFlight_alive hv]
      exact (Flight.tells_ofCheck v'.check).map _

theorem sleep_relays {seconds : Binary64} : Attempt.Relays (Token.sleep seconds : Attempt Call Call.Answer Unit) where
  tells h := by
    obtain ⟨v, ⟨f, hv, rfl, rfl⟩ | ⟨hv, limit, x, t', rfl, ⟨rfl, f, rfl⟩ | ⟨v', rfl, rfl⟩⟩⟩ := leads_sleep h
    · exact Course.tells_dead hv
    · rw [Course.inFlight_alive hv]
      exact ⟨f, rfl⟩
    · rw [Course.inFlight_alive hv]
      exact Flight.tells_ofCheck v'.check

end Token

theorem Run.guarded_relays {c : Call} : (Run.guarded c).Relays := .attempt Token.guard_relays

theorem Action.perform_relays (a : Action) (registry : Registry) (sender : String) (actor : Actor) :
    (a.perform registry sender actor).Relays := by
  cases a with
  | sendEmail => exact Run.guarded_relays
  | createRecord table data =>
    exact .bind .liftExcept fun _ => .bind (.call rfl) fun _ => .bind .now fun _ => Run.guarded_relays
  | updateRecord table record data =>
    exact .bind .liftExcept fun _ => .bind .now fun _ => .bind Run.guarded_relays fun _ => .liftExcept
  | sendNotification => exact Run.guarded_relays

/-- The client is closed while something may be in flight. -/
theorem Webhook.run_relays (options : WebhookOptions) (w : Webhook) : (w.run options).Relays := by
  rw [Webhook.run_eq]
  refine .bind .liftExcept fun _ => .bind .liftExcept fun content => ⟨fun h => ?_⟩
  obtain ⟨-, v, request, t', x, a, rfl, hg, rfl⟩ := Webhook.leads_exchange h
  -- The first look is only for the time that is left; the call looks again.
  have hagain : Course.inFlight (⟨.token, v⟩ :: t') = Course.inFlight t' := by
    obtain ⟨v', ⟨_, -, rfl, -⟩ | ⟨-, ⟨_, rfl, -⟩ | ⟨_, _, rfl, -⟩⟩⟩ := Token.leads_guard hg <;> rfl
  rw [Course.inFlight_concat, hagain]
  exact Flight.Tells.call rfl fun _ => (Token.guard_relays.tells hg).bind _

end Parts

namespace Engine

variable {g : Engine} {o : Order} {e : Opened} {part : Part} {path : StepPath} {vs vs' : Variables} {t : Course}
  {r : Except Failure Unit}

theorem plain_relays {task : Task} (hp : task.isPlain) : (g.execute e path task).Relays := by
  match task with
  | .condition at_ operator expected =>
    refine ⟨fun h => ?_⟩
    rw [(leads_compare h).1]
    trivial
  | .action a => exact .bind .liftExcept fun _ => a.perform_relays ..
  | .delay milliseconds => exact .attempt Token.sleep_relays
  | .webhook w => exact .bind (w.run_relays g.webhook) fun _ => .setVariable

/-- **A walk relays failures**: it comes to what it leaves in flight. -/
theorem Walk.relays (h : Walk g e part vs t r vs') : t.inFlight.Tells r := by
  induction h with
  | finished => trivial
  | stopped hv => exact Course.tells_dead hv
  | fails hv _ ih =>
    rw [Course.inFlight_alive hv]
    exact ih
  | goesOn hv _ _ ih ih' =>
    rw [List.cons_append, Course.inFlight_alive hv, Course.inFlight_append (Flight.eq_clear ih)]
    exact ih'
  | refused => trivial
  | @recorded path task vs vs' n n' id t r a _ _ ih =>
    have hcreated : Course.inFlight [⟨.now, n⟩, ⟨.call (.createStepRun (e.startOf path task.kind n)) none,
        (.ok id : Except Failure String)⟩] = .clear := rfl
    have hupdated : ((t.inFlight.after ⟨.now, n'⟩).after
        ⟨.call (.updateStepRun e.actor.tenant id (.ofResult r n n')) none, a⟩).Tells (a.bind fun _ => r) := by
      rw [Flight.after_now]
      exact Flight.Tells.call rfl fun _ => ih
    rw [← Course.inFlight_around hcreated] at hupdated
    exact hupdated
  | unknown => trivial
  | plain hp h => exact (plain_relays hp).tells h
  | unlisted => trivial
  | looped _ _ ih => exact ih
  | ended => trivial
  | broken _ ih => exact ih
  | again _ _ ih ih' =>
    rw [Course.inFlight_append (Flight.eq_clear ih)]
    exact ih'

theorem body_relays {stored : StoredWorkflow} : (g.body e stored).Relays where
  tells h := by
    obtain ⟨f', -, rfl, -, -⟩ | ⟨w, -, h⟩ := leads_body h
    · trivial
    · exact (walk_of_leads _ _ _ _ h).relays

theorem allows_of_recordsWith {σ : Flight} (h : ∀ x ∈ t, ∀ σ, x.op.RecordsWith σ) : failing.Allows σ t :=
  Rule.allows_of_forall h

/-- While its steps are taken the end of an execution is not recorded. -/
theorem body_recordsWith {stored : StoredWorkflow} (h : (g.body e stored).Leads vs t r vs') :
    ∀ x ∈ t, ∀ σ, x.op.RecordsWith σ := by
  rintro ⟨op, reply⟩ hx σ
  cases op with
  | call c limit =>
    have hc := body_calls h ⟨c, reply⟩ (Course.mem_calls.mpr ⟨limit, hx⟩)
    cases c <;> first | trivial | exact hc.elim nofun nofun
  | _ => trivial

section Closing

variable {r' : Except Failure Unit} {σ : Flight}

theorem Closing.allows (h : Closing e r vs t r') (hσ : σ.Tells r) : failing.Allows σ t := by
  cases h with
  | unrecorded => exact ⟨trivial, trivial⟩
  | @recorded n w a hw =>
    have hsame : failing.after σ ⟨.now, n⟩ = σ := Flight.after_now n
    refine ⟨trivial, ?_, trivial⟩
    rw [hsame]
    exact ⟨r, hσ, rfl⟩

theorem Closing.fails {f : Failure} (h : Closing e (.error f) vs t r') : ∃ f', r' = .error f' := by
  cases h with
  | unrecorded => exact ⟨_, rfl⟩
  | @recorded n w a hw =>
    cases a with
    | error f' => exact ⟨f', rfl⟩
    | ok _ => exact ⟨f, rfl⟩

/-- The closing of an execution brings nothing in flight. -/
theorem Closing.inFlight (h : Closing e r vs t r') (id : String) : Course.inFlight (t ++ [⟨.delist id, ()⟩]) = .clear := by
  cases h <;> rfl

end Closing

theorem Vain.recordsWith (h : Vain o t) : ∀ x ∈ t, ∀ σ, x.op.RecordsWith σ := by
  cases h with
  | unfound => exact List.forall_mem_singleton.mpr fun _ => trivial
  | unbegun => exact List.forall_mem_cons.mpr ⟨fun _ => trivial, List.forall_mem_singleton.mpr fun _ => trivial⟩
  | refused =>
    exact List.forall_mem_cons.mpr ⟨fun _ => trivial, List.forall_mem_cons.mpr ⟨fun _ => trivial,
      List.forall_mem_singleton.mpr fun _ => trivial⟩⟩

/-- **Every run fails** with what is in flight. -/
theorem run_obeys_failing (g : Engine) (o : Order) : (g.run o).run.Obeys failing .clear := by
  intro t result h
  have hj := journey_of_leads h
  cases hj with
  | unopened hvain => exact ⟨allows_of_recordsWith (vain_of_leads h hvain).recordsWith, fun _ => ⟨_, rfl⟩⟩
  | @opened stored vs final n start id body closing r r' hvs hbody hclosing =>
    have hrelays : body.inFlight.Tells r := body_relays.tells hbody
    constructor
    · refine Rule.allows_append.mpr ⟨Rule.allows_append.mpr ⟨?_, Rule.allows_append.mpr ⟨?_, ?_⟩⟩, ?_⟩
      · exact allows_of_recordsWith (List.forall_mem_cons.mpr ⟨fun _ => trivial, List.forall_mem_cons.mpr ⟨fun _ => trivial,
          List.forall_mem_cons.mpr ⟨fun _ => trivial, List.forall_mem_cons.mpr ⟨fun _ => trivial,
            List.forall_mem_singleton.mpr fun _ => trivial⟩⟩⟩⟩)
      · exact allows_of_recordsWith (body_recordsWith hbody)
      · exact hclosing.allows hrelays
      · exact ⟨trivial, trivial⟩
    · intro hσ
      have hbodyFlight : body.inFlight ≠ .clear := by
        intro hclear
        refine hσ ?_
        show Course.inFlight (g.opening o stored n start id ++ (body ++ closing) ++ [⟨.delist id, ()⟩]) = .clear
        rw [List.append_assoc, Course.inFlight_append rfl, List.append_assoc, Course.inFlight_append hclear]
        exact hclosing.inFlight id
      obtain ⟨f, rfl⟩ := hrelays.exists_error hbodyFlight
      obtain ⟨f', rfl⟩ := hclosing.fails
      exact ⟨f', rfl⟩

end Engine

/-! ## What a run meets -/

section Effects

variable {S : Setting} {m : Moment S} {φ : Phase S}

theorem Moment.schedule_next_of_effect {e : Effect S.World} (h : m.activity.effect? = some e)
    (he : ∀ seconds, e ≠ .pause seconds) : ∃ i, m.next.schedule = (m.schedule.affect i e).2 := by
  obtain ⟨i, e', he', -, hnext⟩ | ⟨i, q, next, hactivity, -⟩ | ⟨i, hpause, -⟩ := m.schedule_next
  · obtain rfl := Option.some.inj (h.symm.trans he')
    exact ⟨i, hnext⟩
  · rw [hactivity] at h
    cases h
  · obtain ⟨seconds, rfl⟩ := hpause e h
    exact absurd rfl (he seconds)

theorem Schedule.cancelled_cancelToken {s : Schedule S} {n : Nat} (hn : n < s.tokens.length) (reason : String) :
    ∃ t, (s.cancelToken n reason).tokens[n]? = some t ∧ t.cancelled = some reason := by
  let marked : Schedule S := { s with tokens := s.tokens.modify n fun t => { t with cancelled := some reason } }
  have hmarked : marked.tokens[n]? = some { s.tokens[n] with cancelled := some reason } := by
    show (s.tokens.modify n _)[n]? = _
    rw [List.getElem?_modify_eq, List.getElem?_eq_getElem hn]
    rfl
  have honward : Onward (fun _ => False) marked (s.cancelToken n reason) := .noticed _ _
  obtain ⟨t, ht, -, hsame | ⟨_, hnone, -⟩⟩ := honward.tokens n _ hmarked
  · exact ⟨t, ht, hsame⟩
  · exact hnone.elim

end Effects

section Meets

variable {World : Type} {perform : (c : Call) → Work World (Except Failure c.Answer)}

/-- A failure that a run meets on its way from one moment to another: it looks at its token and finds it dead, or one of its
requests is answered with the failure. -/
inductive Moment.Meets (i : Nat) (m m' : Moment (Engine.setting World perform)) (f : Failure) : Prop where
  | look {m₁ : Moment (Engine.setting World perform)} : m.Goes m₁ → m₁.Goes m' → m₁.Makes i .token →
    (m₁.schedule.tokenView i).check = .error f → Meets i m m' f
  | answer {m₁ m₂ : Moment (Engine.setting World perform)} {q : Request Call}
      {next : q.Reply Call.Answer → (Engine.setting World perform).Rest} {r : q.Reply Call.Answer} :
    m.Goes m₁ → Move m₁ m₂ → m₂.Goes m' → m₁.In i (.waiting q next) → m₂.activity = .run i (next r) →
      Exchange.failure? ⟨q, r⟩ = some f → Meets i m m' f

theorem Moment.Meets.move {i : Nat} {m m₁ m₂ : Moment (Engine.setting World perform)} {f : Failure} (h : m.Meets i m₁ f)
    (hmove : Move m₁ m₂) : m.Meets i m₂ f := by
  cases h with
  | look h₁ h₂ hq hf => exact .look h₁ (h₂.move hmove) hq hf
  | answer h₁ h₁₂ h₂ hin hnext hf => exact .answer h₁ h₁₂ (h₂.move hmove) hin hnext hf

/-- At this moment the run does not complete: if it records the end of its execution, that is a failure with this property, and
if it has ended, it has come to no result. -/
structure Moment.FailsBy (i : Nat) (Q : Failure → Prop) (m : Moment (Engine.setting World perform)) : Prop where
  closes {tenant id : String} {last : ExecutionEnd} {limit : Option Binary64} :
    m.Makes i (.call (.updateExecution tenant id last) limit) → ∃ f, Q f ∧ last.outcome = .failed f.summary
  ends {result : Except String (Except Failure Execution)} : m.schedule.result? i = some result → ∀ x, result ≠ .ok (.ok x)

end Meets

namespace Engine

variable {World : Type} {perform : (c : Call) → Work World (Except Failure c.Answer)} {g : Engine} {o : Order} {i : Nat}
  {m m' m'' : Moment (setting World perform)}

/-- A run that has found its token dead: a failure is in flight that it has met since then. -/
def Failing (i : Nat) (m₀ m : Moment (setting World perform)) : Phase (setting World perform) → Prop
  | .ready _ => False
  | .going rest => ∃ f, m₀.Meets i m f ∧ Program.Obeys failing (.failure f) rest
  | .called q next | .waiting q next =>
    ∃ f, m₀.Meets i m f ∧ ∀ r, Program.Obeys failing (.failure ((Exchange.failure? ⟨q, r⟩).getD f)) (next r)
  | .ended result => ∀ x, result ≠ .ok (.ok x)

/-- A run that comes to no result unless it finds its token alive: something is in flight. -/
def Doomed : Phase (setting World perform) → Prop
  | .ready _ => False
  | .going rest => ∃ σ : Flight, σ ≠ .clear ∧ Program.Obeys failing σ rest
  | .called q next | .waiting q next => q ≠ .token ∧ ∀ r, ∃ σ : Flight, σ ≠ .clear ∧ Program.Obeys failing σ (next r)
  | .ended result => ∀ x, result ≠ .ok (.ok x)

theorem exists_check_of_dead {s : Schedule (setting World perform)} (h : s.IsDead i) :
    ∃ f, (s.tokenView i).check = .error f := by
  unfold Schedule.IsDead at h
  cases hc : (s.tokenView i).check with
  | ok u => exact absurd hc h
  | error f => exact ⟨f, rfl⟩

theorem after_dead {v : TokenView} {f : Failure} (hv : v.check = .error f) (σ : Flight) :
    failing.after σ ⟨.token, v⟩ = .failure f := by
  show Flight.ofCheck v.check = .failure f
  rw [hv]
  rfl

/-- A request that takes time may fail, and then its failure is in flight. -/
theorem after_slow {q : Request Call} {s : Schedule (setting World perform)} (hq : s.reply? i q = none) (f : Failure)
    (r : q.Reply Call.Answer) : failing.after (.failure f) ⟨q, r⟩ = .failure ((Exchange.failure? ⟨q, r⟩).getD f) := by
  cases q <;> first | rfl | cases hq

/-- What a run may record while something is in flight. -/
theorem exists_of_records {σ : Flight} {tenant id : String} {last : ExecutionEnd} {limit : Option Binary64}
    {next : Except Failure Unit → (setting World perform).Rest}
    (h : Program.Obeys failing σ (.ask (.call (.updateExecution tenant id last) limit) next)) (hσ : σ ≠ .clear) :
    ∃ f, σ.Tells (.error f : Except Failure Unit) ∧ last.outcome = .failed f.summary := by
  obtain ⟨r, hr, houtcome⟩ := h.allows (obliging { id := .null, tenant := .null } "")
  obtain ⟨f, rfl⟩ := hr.exists_error hσ
  exact ⟨f, hr, houtcome⟩

theorem Failing.failsBy {m₀ : Moment (setting World perform)} {φ : Phase (setting World perform)} (hin : m.In i φ)
    (hJ : Failing i m₀ m φ) : m.FailsBy i (m₀.Meets i m) where
  closes := by
    rintro tenant id last limit ⟨next, hnext⟩
    obtain rfl := hin.eq_going hnext
    obtain ⟨f, hmet, hobeys⟩ := hJ
    obtain ⟨f', hf', houtcome⟩ := exists_of_records hobeys nofun
    cases hf'
    exact ⟨f, hmet, houtcome⟩
  ends hresult := by
    obtain rfl := hin.eq_ended hresult
    exact hJ

theorem Doomed.failsBy {φ : Phase (setting World perform)} (hin : m.In i φ) (hJ : Doomed φ) : m.FailsBy i fun _ => True where
  closes := by
    rintro tenant id last limit ⟨next, hnext⟩
    obtain rfl := hin.eq_going hnext
    obtain ⟨σ, hσ, hobeys⟩ := hJ
    obtain ⟨f, -, houtcome⟩ := exists_of_records hobeys hσ
    exact ⟨f, trivial, houtcome⟩
  ends hresult := by
    obtain rfl := hin.eq_ended hresult
    exact hJ

/-- **A step of a failing run** leaves it failing. -/
theorem Failing.step {m₀ : Moment (setting World perform)} {φ φ' : Phase (setting World perform)} (hin : m.In i φ)
    (hmove : Move m m') (hin' : m'.In i φ') (hstep : φ.Step i m φ') (hgoes : m₀.Goes m) (hdead : m.schedule.IsDead i)
    (hJ : Failing i m₀ m φ) : Failing i m₀ m' φ' := by
  cases hstep with
  | stay hφ =>
    cases φ with
    | ready rest => exact hJ.elim
    | going rest => exact absurd rfl (hφ rest)
    | called q next =>
      obtain ⟨f, hmet, hobeys⟩ := hJ
      exact ⟨f, hmet.move hmove, hobeys⟩
    | waiting q next =>
      obtain ⟨f, hmet, hobeys⟩ := hJ
      exact ⟨f, hmet.move hmove, hobeys⟩
    | ended result => exact hJ
  | begin => exact hJ.elim
  | drop => exact hJ.elim
  | @reply q next r hreply =>
    obtain ⟨f, hmet, hobeys⟩ := hJ
    have hnext := hobeys.next r
    cases q with
    | token =>
      cases hreply
      obtain ⟨f', hf'⟩ := exists_check_of_dead hdead
      exact ⟨f', .look hgoes (.of_move hmove) hin.makes hf', after_dead hf' (.failure f) ▸ hnext⟩
    | now | openToken | enlist | delist => exact ⟨f, hmet.move hmove, hnext⟩
    | awaitCancel limit => cases hreply
    | call c limit => cases hreply
  | call herrand =>
    obtain ⟨f, hmet, hobeys⟩ := hJ
    have hreply := Setting.reply?_of_errandOf? (s := m.schedule) (i := i) herrand
    exact ⟨f, hmet.move hmove, fun r => after_slow hreply f r ▸ hobeys.next r⟩
  | wait hreply =>
    obtain ⟨f, hmet, hobeys⟩ := hJ
    exact ⟨f, hmet.move hmove, fun r => after_slow hreply f r ▸ hobeys.next r⟩
  | start =>
    obtain ⟨f, hmet, hobeys⟩ := hJ
    exact ⟨f, hmet.move hmove, hobeys⟩
  | @answer q next r =>
    obtain ⟨f, hmet, hobeys⟩ := hJ
    cases hr : Exchange.failure? ⟨q, r⟩ with
    | none =>
      refine ⟨f, hmet.move hmove, ?_⟩
      have hsame := hobeys r
      rw [hr] at hsame
      exact hsame
    | some f' =>
      refine ⟨f', .answer hgoes hmove (.refl _) hin hin'.activity_eq hr, ?_⟩
      have hnew := hobeys r
      rw [hr] at hnew
      exact hnew
  | @finish result =>
    obtain ⟨f, -, hobeys⟩ := hJ
    obtain ⟨f', hf'⟩ := hobeys.ends nofun
    rintro x hx
    cases hx
    cases hf'
  | cut => exact nofun

/-- **A step of a doomed run** that does not find its token alive leaves it doomed. -/
theorem Doomed.step {φ φ' : Phase (setting World perform)} (hin : m.In i φ) (hlook : m.Makes i .token → m.schedule.IsDead i)
    (hstep : φ.Step i m φ') (hJ : Doomed φ) : Doomed φ' := by
  have hslow : ∀ {σ : Flight} {q : Request Call} {r : q.Reply Call.Answer}, σ ≠ .clear → q ≠ .token →
      failing.after σ ⟨q, r⟩ ≠ .clear := fun hσ hq => Flight.after_ne_clear hσ fun v hv => absurd (congrArg Exchange.op hv) hq
  cases hstep with
  | stay => exact hJ
  | begin => exact hJ.elim
  | drop => exact hJ.elim
  | @reply q next r hreply =>
    obtain ⟨σ, hσ, hobeys⟩ := hJ
    refine ⟨_, ?_, hobeys.next r⟩
    cases q with
    | token =>
      cases hreply
      obtain ⟨f, hf⟩ := exists_check_of_dead (hlook hin.makes)
      have hfailure := after_dead hf σ
      intro hclear
      cases hfailure.symm.trans hclear
    | _ => exact hslow hσ nofun
  | @call q next errand herrand =>
    obtain ⟨σ, hσ, hobeys⟩ := hJ
    have hq : q ≠ .token := by
      rintro rfl
      cases herrand
    exact ⟨hq, fun r => ⟨_, hslow hσ hq, hobeys.next r⟩⟩
  | @wait q next hreply =>
    obtain ⟨σ, hσ, hobeys⟩ := hJ
    have hq : q ≠ .token := by
      rintro rfl
      cases hreply
    exact ⟨hq, fun r => ⟨_, hslow hσ hq, hobeys.next r⟩⟩
  | start => exact hJ
  | answer r => exact hJ.2 r
  | finish =>
    obtain ⟨σ, hσ, hobeys⟩ := hJ
    obtain ⟨f, hf⟩ := hobeys.ends hσ
    rintro x hx
    cases hx
    cases hf
  | cut => exact nofun

section Launched

variable {s : Schedule (setting World perform)} {token : Option Nat}

/-- A run that finds its token dead is failing from then on. -/
theorem failing_of_goes (h : (launched g o s token).Goes m) (hlook : m.Makes s.fibers.length .token)
    (hdead : m.schedule.IsDead s.fibers.length) (hm : m.next.Goes m') :
    ∃ φ, m'.In s.fibers.length φ ∧ Failing s.fibers.length m m' φ := by
  obtain ⟨next, hnext⟩ := hlook
  obtain ⟨hin, σ, hobeys⟩ := obeys_of_goes (run_obeys_failing g o) h hnext
  obtain ⟨f, hf⟩ := exists_check_of_dead hdead
  obtain ⟨φ, hφ, hstep⟩ := (Move.next m).phase hin
  have hfailing : Failing s.fibers.length m m.next φ := by
    cases hstep with
    | stay hgoing => exact absurd rfl (hgoing _)
    | reply hreply =>
      cases hreply
      exact ⟨f, .look (.refl m) (.of_move (.next m)) hin.makes hf, after_dead hf σ ▸ hobeys.next _⟩
    | call herrand => cases herrand
    | wait hreply => cases hreply
  obtain ⟨φ', hφ', -, hJ⟩ := hm.phase (J := fun m₁ φ₁ => m.Goes m₁ ∧ Failing s.fibers.length m m₁ φ₁)
    (fun m₁ m₂ φ₁ φ₂ hin₁ hmove hin₂ hstep ⟨hgoes, hJ⟩ =>
      ⟨hgoes.move hmove, hJ.step hin₁ hmove hin₂ hstep hgoes (hgoes.dead hdead)⟩)
    hφ ⟨.of_move (.next m), hfailing⟩
  exact ⟨φ', hφ', hJ⟩

/-- A cancellation that finds an execution of a run leaves the token of the run cancelled, for its reason or a later one. -/
theorem cancelled_of_goes {execution reason : String} {listed : Listed}
    (hcancel : m.activity.effect? = some (.cancel execution reason))
    (hfound : m.schedule.running.find? (·.execution == execution) = some listed)
    (hown : m.schedule.tokenOf? i = some listed.token) (hlisted : listed.token < m.schedule.tokens.length)
    (hm : m.next.Goes m') :
    ∃ reason', (m'.schedule.tokenView i).token.cancelled = some reason' ∧
      (reason' = reason ∨ m.next.CancelsUntil m' reason') := by
  have hnext : m.next.schedule = m.schedule.cancelToken listed.token reason := by
    obtain ⟨j, hj⟩ := Moment.schedule_next_of_effect hcancel nofun
    rw [hj]
    show (m.schedule.cancelExecution execution reason).2 = _
    unfold Schedule.cancelExecution
    rw [hfound]
  obtain ⟨t, ht, hcancelled⟩ := Schedule.cancelled_cancelToken hlisted reason
  rw [← hnext] at ht
  have hown' : m.next.schedule.tokenOf? i = some listed.token := (Move.next m).onward.owners i _ hown
  obtain ⟨t', ht', -, hsource⟩ := hm.onward.tokens _ t ht
  have hview : (m'.schedule.tokenView i).token = t' := by
    unfold Schedule.tokenView
    rw [hm.onward.owners i _ hown', Option.bind_some, ht', Option.getD_some]
  rw [hview]
  rcases hsource with hsame | ⟨reason', hlater, hnew⟩
  · exact ⟨reason, hsame.trans hcancelled, .inl rfl⟩
  · exact ⟨reason', hnew, .inr hlater⟩

theorem reply?_of_isBounded {s : Schedule (setting World perform)} {q : Request Call} (hq : q.isBounded) :
    s.reply? i q = none := by
  cases q <;> first | rfl | cases hq

/-- A run that has made a request that the token bounds comes to no result unless it finds its token alive after that. -/
theorem failsBy_of_bounded {m₀ : Moment (setting World perform)} {q : Request Call} (h : (launched g o s token).Goes m₀)
    (hmakes : m₀.Makes s.fibers.length q) (hq : q.isBounded)
    (hm : m₀.next.GoesFinding s.fibers.length (fun s' => s'.IsDead s.fibers.length) m) :
    m.FailsBy s.fibers.length fun _ => True := by
  obtain ⟨next, hnext⟩ := hmakes
  obtain ⟨hin, σ, hobeys⟩ := obeys_of_goes (run_obeys_failing g o) h hnext
  have hdoomed : Doomed (.waiting q next : Phase (setting World perform)) := by
    refine ⟨?_, fun r => ⟨_, Flight.after_bounded hq, hobeys.next r⟩⟩
    rintro rfl
    cases hq
  obtain ⟨φ, hφ, hstep⟩ := (Move.next m₀).phase hin
  have hφdoomed : Doomed φ := by
    cases hstep with
    | stay hgoing => exact absurd rfl (hgoing _)
    | reply hreply => cases (reply?_of_isBounded hq).symm.trans hreply
    | call herrand => exact hdoomed
    | wait hreply => exact hdoomed
  obtain ⟨φ', hφ', hJ⟩ := hm.phase (fun _ _ _ hin hlook hstep hJ => Doomed.step hin hlook hstep hJ) hφ hφdoomed
  exact hJ.failsBy hφ'

/-- **A run that finds itself cancelled fails.** -/
theorem failsBy_of_look (h : (launched g o s token).Goes m) (hlook : m.Makes s.fibers.length .token)
    (hdead : m.schedule.IsDead s.fibers.length) (hm : m.next.Goes m') : m'.FailsBy s.fibers.length (m.Meets s.fibers.length m') := by
  obtain ⟨φ, hin, hJ⟩ := failing_of_goes h hlook hdead hm
  exact hJ.failsBy hin

/-- **What becomes of a run that is cancelled** when the cancellation finds an execution that runs under its token. It begins
nothing that it looks at its token for: no step, no call that reaches outside, no wait. If it looks, it finds the reason of that
cancellation or of a later one, and fails, with a failure that it meets at that look or later. If it has not looked since the
last call or wait that the token bounds, it fails as well, be it at its next look or by what it is answered. In all other cases it
need not look again, and then nothing stops it: it comes to its end by a course without a dead look, and fails by a cancellation
only if a call was answered with one. -/
theorem cancelled_run_fails_if_it_looks (g : Engine) (o : Order) (s : Schedule (setting World perform)) (token : Option Nat)
    {execution reason : String} {listed : Listed} (h : (launched g o s token).Goes m)
    (hcancel : m.activity.effect? = some (.cancel execution reason))
    (hfound : m.schedule.running.find? (·.execution == execution) = some listed)
    (hown : m.schedule.tokenOf? s.fibers.length = some listed.token) (hlisted : listed.token < m.schedule.tokens.length) :
    let i := s.fibers.length
    (∀ m' q, m.next.Goes m' → m'.Makes i q → q.isGuarded = false) ∧
    (∀ m', m.next.Goes m' → m'.Makes i .token → ∃ reason',
      (m'.schedule.tokenView i).check = .error (.cancelled reason') ∧ (reason' = reason ∨ m.next.CancelsUntil m' reason') ∧
      ∀ m'', m'.next.Goes m'' → m''.FailsBy i (m'.Meets i m'')) ∧
    (∀ m₀ q m', (launched g o s token).Goes m₀ → m₀.Makes i q → q.isBounded → m₀.next.GoesBlind i m → m.next.Goes m' →
      m'.FailsBy i fun _ => True) ∧
    (∀ m', m.next.Goes m' →
      (∃ m₁, m.next.Goes m₁ ∧ m₁.Makes i .token ∧ m₁.next.Goes m') ∨ m.next.GoesBlind i m') ∧
    ∀ m' result, (launched g o s token).GoesAlive i m → m.next.GoesBlind i m' → m'.schedule.result? i = some (.ok result) →
      ∃ t : Course, (g.run o).run.Leads t result ∧ t.FindsAlive ∧
        ∀ reason', result = .error (.cancelled reason') → ∃ x ∈ t, Exchange.failure? x = some (.cancelled reason') := by
  intro i
  have hcheck : ∀ m', m.next.Goes m' → ∃ reason', (m'.schedule.tokenView i).check = .error (.cancelled reason') ∧
      (reason' = reason ∨ m.next.CancelsUntil m' reason') := by
    intro m' hm
    obtain ⟨reason', hreason', hsource⟩ := cancelled_of_goes hcancel hfound hown hlisted hm
    refine ⟨reason', ?_, hsource⟩
    unfold TokenView.check
    rw [hreason']
  have hdead : ∀ m', m.next.Goes m' → m'.schedule.IsDead i := by
    intro m' hm
    obtain ⟨reason', hreason', -⟩ := hcheck m' hm
    unfold Schedule.IsDead
    rw [hreason']
    exact nofun
  -- The moment of the cancellation is not one of a look.
  have hblind : ¬ m.Makes i .token := by
    rintro ⟨next, hnext⟩
    rw [hnext] at hcancel
    cases hcancel
  refine ⟨?_, ?_, ?_, ?_, ?_⟩
  · exact fun m' q hm hq => not_isGuarded_of_dead (h.next.trans hm) (hdead m' hm) hq
  · intro m' hm hlook
    obtain ⟨reason', hreason', hsource⟩ := hcheck m' hm
    exact ⟨reason', hreason', hsource, fun m'' hm'' => failsBy_of_look (h.next.trans hm) hlook (hdead m' hm) hm''⟩
  · intro m₀ q m' h₀ hq hbounded hm hm'
    refine failsBy_of_bounded h₀ hq hbounded ?_
    exact ((hm.mono fun _ => False.elim).trans (.of_blind (.next m) hblind)).trans (hm'.goesFinding hdead)
  · exact fun m' hm => hm.blind_or_looks.symm
  · intro m' result halive hm hresult
    have hend : (launched g o s token).GoesAlive i m' :=
      (halive.trans (.of_blind (.next m) hblind)).trans (hm.mono fun _ => False.elim)
    obtain ⟨t, hleads, ht⟩ := leads_of_goesAlive hend hresult
    refine ⟨t, hleads, ht, ?_⟩
    rintro reason' rfl
    exact answered_of_cancelled hleads ht

end Launched

end Engine

/-! ## Too late to cancel -/

namespace Checking

/-- The entries of a stored step that compares a variable with null. -/
def entries (id : String) : Entries :=
  [(.str "id", .str id), (.str "type", .str "condition"),
    (.str "config", .dict [(.str "path", .str "x"), (.str "operator", .str "equals")])]

/-- Such a step when it is read. -/
def stepRead (id : String) : Step := .mk id (.condition "x" .equals .null) none none

/-- A workflow of two such steps. -/
def stored : StoredWorkflow :=
  { id := .str "workflow", tenant := .str "tenant", steps := .list [.dict (entries "first"), .dict (entries "last")] }

/-- A world that keeps the statuses in which executions are closed. While the step run of a step is closed the execution is
cancelled. -/
def closing (stopAt : String) : (c : Call) → Work (List String) (Except Failure c.Answer)
  | .createStepRun start => return .ok start.step
  | .updateStepRun _ id _ => do
    if id == stopAt then
      Work.pause 1
      let _ ← Work.cancel "execution" "stop"
    return .ok ()
  | .updateExecution _ _ last => do
    Work.change (· ++ [last.outcome.status])
    return .ok ()
  | c => return c.obliged stored ""

/-- The statuses in which executions have been closed. -/
def statuses {stopAt : String} (s : Schedule (Engine.setting (List String) (closing stopAt))) : List String := s.world

/-- An order of the workflow. -/
def order : Order := ⟨"workflow", ⟨"tenant", "user"⟩, [], []⟩

variable (stopAt : String)

/-- The beginning of the run. -/
def beginning : Moment (Engine.setting (List String) (closing stopAt)) := Engine.launched {} order { world := [] } none

/-- The moment at which its execution is cancelled. -/
def cancelling : Moment (Engine.setting (List String) (closing stopAt)) :=
  (((beginning stopAt).schedule.handle (.step 0 none)).handle (.settle 0 0)).take (.step 0 none)

theorem goes_cancelling : (beginning stopAt).Goes (cancelling stopAt) :=
  ((Schedule.goes_handle _ _).trans (Schedule.goes_handle _ _)).move (.take _ _)

theorem body_stored (g : Engine) (e : Opened) : g.body e stored = g.runAll e .top [stepRead "first", stepRead "last"] := by
  have hread : ∀ id, Step.entriesOf (.dict (entries id)) = .ok (entries id) →
      Step.read g.loopLimit (.dict (entries id)) = .ok (stepRead id) :=
    fun _ hes => Step.read_of_bodiless hes rfl rfl rfl rfl rfl
  refine Engine.body_of_load (w := ⟨"workflow", "tenant", "", [], [stepRead "first", stepRead "last"]⟩) ?_
  unfold Workflow.load
  show Step.readAll g.loopLimit [.dict (entries "first"), .dict (entries "last")] >>= _ = _
  rw [Step.readAll_cons_of_ok (hread "first" rfl) (Step.readAll_cons_of_ok (hread "last" rfl) (Step.readAll_nil _))]
  rfl

/-- The run when its execution is open. -/
def opened : Schedule (Engine.setting (List String) (closing stopAt)) :=
  (((beginning stopAt).schedule.modifyFiber 0 fun f => { f with stage := .active }).openToken 0 none).enlist 0
    "execution" "workflow" "tenant"

theorem cancelling_eq :
    let e : Opened := ⟨"execution", order.actor, Clock.stamp (Binary64.zero false)⟩
    cancelling stopAt = (((opened stopAt).drive 0 (order.afterOpening e [] (do
      let result ← Run.observe (({} : Engine).runAll e .top [stepRead "first", stepRead "last"])
      Engine.close e (.ofResult result)
      result)).run).handle (.settle 0 0)).take (.step 0 none) := by
  intro e
  rw [← body_stored]
  rfl

/-- Whether the effect is to cancel the execution. -/
def isCancel : Option (Effect (List String)) → Bool
  | some (.cancel execution reason) => execution == "execution" && reason == "stop"
  | _ => false

theorem eq_cancel_of_isCancel {e : Option (Effect (List String))} (h : isCancel e = true) :
    e = some (.cancel "execution" "stop") := by
  unfold isCancel at h
  split at h
  · rw [Bool.and_eq_true, beq_iff_eq, beq_iff_eq] at h
    rw [h.1, h.2]
  · cases h

theorem effect_cancelling {stopAt : String} (h : stopAt = "first" ∨ stopAt = "last") :
    (cancelling stopAt).activity.effect? = some (.cancel "execution" "stop") := by
  refine eq_cancel_of_isCancel ?_
  rw [cancelling_eq]
  rcases h with rfl | rfl <;> decide +kernel

/-- The execution that the cancellation finds runs under the token of the run. -/
theorem found_cancelling {stopAt : String} (h : stopAt = "first" ∨ stopAt = "last") :
    ∃ listed, (cancelling stopAt).schedule.running.find? (·.execution == "execution") = some listed ∧
      (cancelling stopAt).schedule.tokenOf? 0 = some listed.token ∧ listed.token < (cancelling stopAt).schedule.tokens.length := by
  have hfound : ((cancelling stopAt).schedule.running.find? (·.execution == "execution")).map (·.token) = some 0 ∧
      (cancelling stopAt).schedule.tokenOf? 0 = some 0 ∧ (cancelling stopAt).schedule.tokens.length = 1 := by
    rw [cancelling_eq]
    rcases h with rfl | rfl <;> decide +kernel
  obtain ⟨hmap, hown, htokens⟩ := hfound
  obtain ⟨listed, hlisted, htoken⟩ := Option.map_eq_some_iff.mp hmap
  exact ⟨listed, hlisted, hown.trans (congrArg some htoken.symm), by rw [htoken, htokens]; exact Nat.zero_lt_one⟩

/-- Whether the run has completed. -/
def hasCompleted : Option (Except String (Except Failure Finished)) → Bool
  | some (.ok (.ok _)) => true
  | _ => false

theorem exists_of_hasCompleted {result : Option (Except String (Except Failure Finished))} (h : hasCompleted result = true) :
    ∃ x, result = some (.ok (.ok x)) := by
  unfold hasCompleted at h
  split at h
  · exact ⟨_, rfl⟩
  · cases h

/-- A run that is cancelled while its last step is recorded completes all the same. -/
theorem completed_when_cancelled :
    let m := cancelling "last"
    (beginning "last").Goes m ∧ m.activity.effect? = some (.cancel "execution" "stop") ∧
      (m.schedule.cancelExecution "execution" "stop").1 = true ∧ m.next.Goes ⟨.idle, m.next.carryOut⟩ ∧
      statuses m.next.carryOut = ["completed"] ∧ ∃ x, m.next.carryOut.result? 0 = some (.ok (.ok x)) := by
  intro m
  refine ⟨goes_cancelling _, effect_cancelling (.inr rfl), ?_, Moment.goes_carryOut _, ?_, ?_⟩
  · obtain ⟨listed, hfound, -⟩ := found_cancelling (.inr rfl)
    show ((cancelling "last").schedule.cancelExecution "execution" "stop").1 = true
    unfold Schedule.cancelExecution
    rw [hfound]
  · show statuses (cancelling "last").next.carryOut = _
    rw [cancelling_eq]
    decide +kernel
  · show ∃ x, (cancelling "last").next.carryOut.result? 0 = _
    refine exists_of_hasCompleted ?_
    rw [cancelling_eq]
    decide +kernel

/-- Whether the run looks at its token. -/
def looks : Activity (Engine.setting (List String) (closing stopAt)) → Bool
  | .run 0 (.ask .token _) => true
  | _ => false

theorem exists_of_looks {stopAt : String} {a : Activity (Engine.setting (List String) (closing stopAt))}
    (h : looks stopAt a = true) : ∃ next, a = .run 0 (.ask .token next) := by
  unfold looks at h
  split at h
  · exact ⟨_, rfl⟩
  · cases h

theorem not_isDead_cancelling : ¬ (cancelling "last").schedule.IsDead 0 := by
  refine mt TokenView.check_ne_ok.mp ?_
  rw [cancelling_eq]
  decide +kernel

/-- A run that is cancelled while its first step is recorded finds it out before the second, and is closed as failed. One that is
cancelled while its last step is recorded takes a course without a dead look, and completes. -/
theorem cancelled_while_recording :
    (let m := (cancelling "first").next.next
     let last : Moment (Engine.setting (List String) (closing "first")) := ⟨.idle, m.next.carryOut⟩
     m.Makes 0 .token ∧ (∃ reason, (m.schedule.tokenView 0).check = .error (.cancelled reason)) ∧
       statuses last.schedule = ["failed"] ∧ last.FailsBy 0 (m.Meets 0 last)) ∧
    (cancelling "last").next.GoesBlind 0 ⟨.idle, (cancelling "last").next.carryOut⟩ ∧
      ∃ (t : Course) (x : Execution), (({} : Engine).run order).run.Leads t (.ok x) ∧ t.FindsAlive := by
  constructor
  · intro m last
    have hlook : m.Makes 0 .token := by
      refine exists_of_looks ?_
      show looks "first" (cancelling "first").next.next.activity = true
      rw [cancelling_eq]
      decide +kernel
    have hstatuses : statuses last.schedule = ["failed"] := by
      show statuses (cancelling "first").next.next.next.carryOut = _
      rw [cancelling_eq]
      decide +kernel
    obtain ⟨listed, hfound, hown, hlisted⟩ := found_cancelling (.inl rfl)
    obtain ⟨-, hlooks, -⟩ := Engine.cancelled_run_fails_if_it_looks {} order { world := [] } none (goes_cancelling "first")
      (effect_cancelling (.inl rfl)) hfound hown hlisted
    obtain ⟨reason, hreason, -, hfails⟩ := hlooks m (.of_move (.next _)) hlook
    exact ⟨hlook, ⟨reason, hreason⟩, hstatuses, hfails last (Moment.goes_carryOut _)⟩
  · obtain ⟨-, -, -, hend, -, x, hresult⟩ := completed_when_cancelled
    obtain ⟨listed, hfound, hown, hlisted⟩ := found_cancelling (.inr rfl)
    obtain ⟨-, hlooks, -, hblind, hspared⟩ := Engine.cancelled_run_fails_if_it_looks {} order { world := [] } none
      (goes_cancelling "last") (effect_cancelling (.inr rfl)) hfound hown hlisted
    obtain ⟨m₁, h₁, hlook, h₂⟩ | hblind := hblind _ hend
    · -- had it looked, it would have failed
      obtain ⟨-, -, -, hfails⟩ := hlooks m₁ h₁ hlook
      exact absurd rfl ((hfails _ h₂).ends hresult x)
    · have halive := (goes_cancelling "last").goesAlive not_isDead_cancelling
      obtain ⟨t, hleads, ht, -⟩ := hspared _ _ halive hblind hresult
      exact ⟨hblind, t, x, hleads, ht⟩

end Checking

end Runbook
