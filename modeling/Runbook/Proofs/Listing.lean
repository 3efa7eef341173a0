import Runbook.Proofs.Cancel
import Runbook.Proofs.Others

/-!
# The list of running executions

An engine serves many runs at a time, and lists the executions that are running. A run puts its execution on the list once it is
created, and takes it off when it ends, however it ends; in between lie any number of waits, at which other runs come and go. A
tale of a run keeps what the run has been told, so at every moment it is known which executions have been created.

* `Tale`, `Tale.Step`: what a run has been told, and how it goes on.
* `Engine.listing`: the rule of when a run may be listed. **`Engine.run_obeys_listing`**: every run keeps to it.
* `Engine.Serves`: the moments of an engine that serves runs, with the tales of the runs.
* **`Engine.running_executions_are_listed`**: which executions are listed.
-/

namespace Runbook

/-! ## Tales -/

/-- A request that a run waits for. -/
def Request.isSlow {C : Type} : Request C → Bool
  | awaitCancel _ | call .. => true
  | _ => false

/-- What a run has been told so far, and how far it is. -/
structure Tale (S : Setting) where
  told : List (Exchange (Request S.Call) (Request.Reply S.Answer))
  phase : Phase S

section Tales

variable {S : Setting} {i : Nat} {m : Moment S} {x y : Tale S}

/-- How a tale goes on in a move from a moment. -/
inductive Tale.Step (i : Nat) (m : Moment S) : Tale S → Tale S → Prop where
  | silent {t : List (Exchange (Request S.Call) (Request.Reply S.Answer))} {φ φ' : Phase S} :
    φ.Step i m φ' → (∀ rest, φ' = .going rest → φ = .ready rest) → Step i m ⟨t, φ⟩ ⟨t, φ'⟩
  | replied {t : List (Exchange (Request S.Call) (Request.Reply S.Answer))} {q : Request S.Call}
      {next : q.Reply S.Answer → S.Rest} {r : q.Reply S.Answer} :
    m.schedule.reply? i q = some r → Step i m ⟨t, .going (.ask q next)⟩ ⟨t ++ [⟨q, r⟩], .going (next r)⟩
  | answered {t : List (Exchange (Request S.Call) (Request.Reply S.Answer))} {q : Request S.Call}
      {next : q.Reply S.Answer → S.Rest} (r : q.Reply S.Answer) :
    Step i m ⟨t, .waiting q next⟩ ⟨t ++ [⟨q, r⟩], .going (next r)⟩

/-- A run that goes on has something to tell, or nothing. -/
theorem Phase.Step.tale {φ φ' : Phase S} (h : φ.Step i m φ')
    (t : List (Exchange (Request S.Call) (Request.Reply S.Answer))) : ∃ t', Tale.Step i m ⟨t, φ⟩ ⟨t', φ'⟩ := by
  cases h with
  | stay hφ => exact ⟨t, .silent (.stay hφ) fun rest h => absurd h (hφ rest)⟩
  | begin => exact ⟨t, .silent .begin fun rest h => by cases h; rfl⟩
  | drop => exact ⟨t, .silent .drop nofun⟩
  | reply hreply => exact ⟨_, .replied hreply⟩
  | call herrand => exact ⟨t, .silent (.call herrand) nofun⟩
  | wait hreply => exact ⟨t, .silent (.wait hreply) nofun⟩
  | start => exact ⟨t, .silent .start nofun⟩
  | answer r => exact ⟨_, .answered r⟩
  | finish => exact ⟨t, .silent .finish nofun⟩
  | cut => exact ⟨t, .silent .cut nofun⟩

theorem Tale.Step.told_prefix (h : x.Step i m y) : x.told <+: y.told := by
  cases h with
  | silent => exact List.prefix_rfl
  | replied | answered => exact List.prefix_append _ _

/-- A tale adds nothing, or the answer to a request that the run makes or has waited for. -/
theorem Tale.Step.told_eq (h : x.Step i m y) (hin : m.In i x.phase)
    (hslow : ∀ (q : Request S.Call) (next : q.Reply S.Answer → S.Rest), x.phase = .waiting q next → q.isSlow) :
    y.told = x.told ∨ ∃ q r, y.told = x.told ++ [⟨q, r⟩] ∧ (m.Makes i q ∨ q.isSlow) := by
  cases h with
  | silent => exact .inl rfl
  | replied => exact .inr ⟨_, _, rfl, .inl hin.makes⟩
  | answered r => exact .inr ⟨_, r, rfl, .inr (hslow _ _ rfl)⟩

theorem isSlow_of_reply? {s : Schedule S} {q : Request S.Call} (h : s.reply? i q = none) : q.isSlow := by
  cases q <;> first | rfl | cases h

/-- A run that makes a request that is answered at once is told the answer in the next move. -/
theorem Tale.Step.told_of_quick {q : Request S.Call} {next : q.Reply S.Answer → S.Rest} (h : x.Step i m y)
    (hx : x.phase = .going (.ask q next)) (hq : q.isSlow = false) : ∃ r, y.told = x.told ++ [⟨q, r⟩] := by
  have hreply : m.schedule.reply? i q ≠ none := by
    intro hnone
    rw [isSlow_of_reply? hnone] at hq
    cases hq
  cases h with
  | silent hφ hgoing =>
    cases hx
    cases hφ with
    | stay hφ => exact absurd rfl (hφ _)
    | reply => cases hgoing _ rfl
    | call herrand => exact absurd (Setting.reply?_of_errandOf? herrand) hreply
    | wait hnone => exact absurd hnone hreply
  | replied =>
    cases hx
    exact ⟨_, rfl⟩
  | answered => cases hx

/-- A tale that keeps to a rule: what was told is allowed, and what is left of the run keeps to the rule. -/
def Tale.Obeys (R : Rule (Request S.Call) (Request.Reply S.Answer) S.Result) (σ : R.State) (x : Tale S) : Prop :=
  R.Allows σ x.told ∧ match x.phase with
    | .ready rest => x.told = [] ∧ rest.Obeys R σ
    | .going rest => rest.Obeys R (R.stateAfter σ x.told)
    | .called q next | .waiting q next => q.isSlow ∧ R.allows (R.stateAfter σ x.told) q ∧
      ∀ r, (next r).Obeys R (R.after (R.stateAfter σ x.told) ⟨q, r⟩)
    | .ended _ => x.told = [] ∨ ∃ a, R.ends (R.stateAfter σ x.told) a

theorem Rule.stateAfter_append {Op : Type} {Reply : Op → Type} {α : Type} {R : Rule Op Reply α} (σ : R.State)
    (t t' : List (Exchange Op Reply)) : R.stateAfter σ (t ++ t') = R.stateAfter (R.stateAfter σ t) t' :=
  List.foldl_append

variable {R : Rule (Request S.Call) (Request.Reply S.Answer) S.Result} {σ : R.State}

theorem Tale.Obeys.told {t : List (Exchange (Request S.Call) (Request.Reply S.Answer))} {q : Request S.Call}
    {next : q.Reply S.Answer → S.Rest} {r : q.Reply S.Answer} (ht : R.Allows σ t) (hq : R.allows (R.stateAfter σ t) q)
    (hnext : (next r).Obeys R (R.after (R.stateAfter σ t) ⟨q, r⟩)) : Tale.Obeys R σ ⟨t ++ [⟨q, r⟩], .going (next r)⟩ :=
  ⟨Rule.allows_append.mpr ⟨ht, hq, trivial⟩, R.stateAfter_append σ t [⟨q, r⟩] ▸ hnext⟩

theorem Tale.Obeys.isSlow {q : Request S.Call} {next : q.Reply S.Answer → S.Rest} (h : x.Obeys R σ)
    (hx : x.phase = .waiting q next) : q.isSlow := by
  obtain ⟨t, φ⟩ := x
  cases hx
  exact h.2.1

/-- What a run asks is allowed. -/
theorem Tale.Obeys.allows {q : Request S.Call} (h : x.Obeys R σ) (hin : m.In i x.phase) (hq : m.Makes i q)
    (s : Surroundings (Request S.Call) (Request.Reply S.Answer)) : R.allows (R.stateAfter σ x.told) q := by
  obtain ⟨next, hnext⟩ := hq
  obtain ⟨t, φ⟩ := x
  obtain rfl := hin.eq_going hnext
  exact h.2.allows s

/-- **A tale keeps to its rule**, whatever is told. -/
theorem Tale.Obeys.step (h : x.Obeys R σ) (hstep : x.Step i m y) (s : Surroundings (Request S.Call) (Request.Reply S.Answer)) :
    y.Obeys R σ := by
  cases hstep with
  | silent hφ hgoing =>
    cases hφ with
    | stay => exact h
    | begin =>
      obtain ⟨ht, rfl, hrest⟩ := h
      exact ⟨ht, hrest⟩
    | drop => exact ⟨h.1, .inl h.2.1⟩
    | reply => cases hgoing _ rfl
    | call herrand =>
      have hreply := Setting.reply?_of_errandOf? (s := m.schedule) (i := i) herrand
      exact ⟨h.1, isSlow_of_reply? hreply, h.2.allows s, h.2.next⟩
    | wait hreply => exact ⟨h.1, isSlow_of_reply? hreply, h.2.allows s, h.2.next⟩
    | start => exact h
    | answer => cases hgoing _ rfl
    | finish => exact ⟨h.1, .inr ⟨_, h.2.ends⟩⟩
    | cut => exact ⟨h.1, .inr ⟨_, h.2.ends⟩⟩
  | replied => exact .told h.1 (h.2.allows s) (h.2.next _)
  | answered r => exact .told h.1 h.2.2.1 (h.2.2.2 r)

end Tales

/-- One run at a time makes a request. -/
theorem Moment.Makes.eq {S : Setting} {m : Moment S} {i j : Nat} {q q' : Request S.Call} (h : m.Makes i q) (h' : m.Makes j q') :
    i = j := by
  obtain ⟨next, hnext⟩ := h
  obtain ⟨next', hnext'⟩ := h'
  rw [hnext] at hnext'
  cases hnext'
  rfl

theorem Moment.Makes.eq_next {S : Setting} {m m' : Moment S} {i : Nat} {q : Request S.Call} (h : m.Makes i q) (hmove : Move m m') :
    m' = m.next := by
  obtain ⟨next, hnext⟩ := h
  exact hmove.eq_next_of_isOf (i := i) (by rw [hnext]; rfl)

theorem Schedule.exists_tokenOf?_openToken {S : Setting} {s : Schedule S} {i : Nat} {stage : Stage S} (h : s.stage? i = some stage)
    (timeout : Option Binary64) : ∃ n, (s.openToken i timeout).tokenOf? i = some n := by
  unfold openToken
  cases hn : s.tokenOf? i with
  | some n => exact ⟨n, hn⟩
  | none =>
    obtain ⟨x, hx, -⟩ := exists_fiber h
    have hx : (s.newToken timeout).2.fibers[i]? = some x := hx
    refine ⟨(s.newToken timeout).1, ?_⟩
    unfold Schedule.tokenOf? modifyFiber
    dsimp only
    rw [List.getElem?_modify_eq, hx]
    rfl

theorem Listed.put_eq_concat {r : Listed} {l : List Listed} (h : ∀ x ∈ l, x.execution ≠ r.execution) : r.put l = l ++ [r] := by
  induction l with
  | nil => rfl
  | cons x l ih =>
    obtain ⟨hx, hl⟩ := List.forall_mem_cons.mp h
    rw [put, if_neg (by rwa [beq_iff_eq]), ih hl]
    rfl

/-- An execution that is not on the list is put at its end. -/
theorem Schedule.running_enlist {S : Setting} {s : Schedule S} {j n : Nat} {execution workflow tenant : String}
    (hn : s.tokenOf? j = some n) (hfresh : ∀ r ∈ s.running, r.execution ≠ execution) :
    (s.enlist j execution workflow tenant).running = s.running ++ [⟨execution, workflow, tenant, n⟩] := by
  unfold Schedule.enlist
  rw [hn]
  exact Listed.put_eq_concat hfresh

/-- A run stays in its phase when another one is added. -/
theorem Moment.In.launch {S : Setting} {i : Nat} {s : Schedule S} {φ : Phase S} (h : Moment.In i ⟨.idle, s⟩ φ) (rest : S.Rest)
    (token : Option Nat) : Moment.In i ⟨.idle, (s.launch rest token).2⟩ φ := by
  obtain ⟨stage, hstage⟩ := h.stage
  have hstage : s.stage? i = some stage := hstage
  exact (h.elsewhere id id (by rw [Schedule.stage?_launch hstage, hstage])).1

/-- A signal wakes only a run that there is. -/
theorem Schedule.stage?_of_take {S : Setting} {s : Schedule S} {x : Signal S} {j : Nat} (h : (s.take x).activity.IsOf j) :
    ∃ stage, s.stage? j = some stage := by
  have hx : x.fiber? = some j := Decidable.byContradiction fun hne => take_elsewhere hne h
  cases hfiber : s.fibers[j]? with
  | some y => exact ⟨y.stage, by unfold Schedule.stage?; rw [hfiber]; rfl⟩
  | none =>
    cases x with
    | step i interruption =>
      cases hx
      have hidle : (s.step j interruption).activity.IsOf j := h
      unfold Schedule.step at hidle
      rw [hfiber] at hidle
      cases hidle
    | assist i withdraw =>
      cases hx
      have hidle : (s.assist j withdraw).activity.IsOf j := h
      unfold Schedule.assist Schedule.assistantOf? Schedule.stage? at hidle
      rw [hfiber] at hidle
      cases hidle
    | release | settle | occur | cancel => cases h

/-- Who does something is a run that did something before, or one that there is. -/
theorem Move.isOf {S : Setting} {m m' : Moment S} {j : Nat} (h : Move m m') (hj : m'.activity.IsOf j) :
    m.activity.IsOf j ∨ ∃ stage, m.schedule.stage? j = some stage := by
  cases h with
  | next m =>
    by_cases hm : m.activity.IsOf j
    · exact .inl hm
    · exact absurd hj (Moment.befalls_next hm).2
  | take s x => exact .inr (Schedule.stage?_of_take hj)
  | arrange | wait | launch | newToken => cases hj

namespace Engine

/-! ## When a run is listed -/

/-- Where a run is with its place on the list: it has created no execution yet, it has created one, it has a token to be listed
with, it is listed, or it is taken off. -/
inductive Listing where
  | unopened
  | opened (id : String)
  | bound (id : String)
  | listed (id : String)
  | delisted (id : String)

namespace Listing

/-- The execution that has been created. -/
def execution? : Listing → Option String
  | unopened => none
  | opened id | bound id | listed id | delisted id => some id

/-- What a run may ask: its execution is listed at once, and nothing is asked once it is taken off. -/
def allows (o : Order) : Listing → Request Call → Prop
  | unopened, q => q.isOrdinary
  | opened _, .openToken _ => True
  | bound id, .enlist execution workflow tenant => execution = id ∧ workflow = o.workflow ∧ tenant = o.actor.tenant
  | listed id, .delist execution => execution = id
  | listed _, .call (.createExecution _) _ => False
  | listed _, q => q.isOrdinary
  | _, _ => False

/-- Where the run is after an exchange. -/
def after : Listing → Exchange (Request Call) (Request.Reply Call.Answer) → Listing
  | unopened, ⟨.call (.createExecution _) _, r⟩ => match (r : Except Failure String) with
    | .ok id => opened id
    | .error _ => unopened
  | opened id, ⟨.openToken _, _⟩ => bound id
  | bound id, ⟨.enlist .., _⟩ => listed id
  | listed id, ⟨.delist _, _⟩ => delisted id
  | σ, _ => σ

/-- A run that has ended is not on the list. -/
def isSettled : Listing → Bool
  | unopened | delisted _ => true
  | _ => false

end Listing

/-- The rule of the list. -/
abbrev listing (o : Order) : Rule (Request Call) (Request.Reply Call.Answer) (Except Failure Execution) where
  State := Listing
  allows := Listing.allows o
  after := Listing.after
  ends σ _ := σ.isSettled

variable {g : Engine} {o : Order} {e : Opened} {part : Part} {vs vs' : Variables} {t : Course} {r : Except Failure Unit}

theorem Walk.isOrdinary (h : Walk g e part vs t r vs') : ∀ x ∈ t, x.op.isOrdinary := by
  induction h with
  | finished | unknown | unlisted | ended => exact List.forall_mem_nil _
  | stopped => exact List.forall_mem_singleton.mpr rfl
  | fails _ _ ih => exact List.forall_mem_cons.mpr ⟨rfl, ih⟩
  | goesOn _ _ _ ih ih' => exact List.forall_mem_append.mpr ⟨List.forall_mem_cons.mpr ⟨rfl, ih⟩, ih'⟩
  | refused => exact List.forall_mem_cons.mpr ⟨rfl, List.forall_mem_singleton.mpr rfl⟩
  | recorded _ _ ih =>
    refine List.forall_mem_append.mpr ⟨List.forall_mem_cons.mpr ⟨rfl, List.forall_mem_cons.mpr ⟨rfl, ih⟩⟩, ?_⟩
    exact List.forall_mem_cons.mpr ⟨rfl, List.forall_mem_singleton.mpr rfl⟩
  | plain hp h => exact isOrdinary_of_plain hp h
  | looped _ _ ih | broken _ ih => exact ih
  | again _ _ ih ih' => exact List.forall_mem_append.mpr ⟨ih, ih'⟩

theorem Closing.isOrdinary {r' : Except Failure Unit} (h : Closing e r vs t r') : ∀ x ∈ t, x.op.isOrdinary := by
  cases h with
  | unrecorded => exact List.forall_mem_singleton.mpr rfl
  | recorded => exact List.forall_mem_cons.mpr ⟨rfl, List.forall_mem_singleton.mpr rfl⟩

theorem body_isOrdinary {stored : StoredWorkflow} (h : (g.body e stored).Leads vs t r vs') : ∀ x ∈ t, x.op.isOrdinary := by
  obtain ⟨f, -, rfl, -, -⟩ | ⟨w, -, h⟩ := leads_body h
  · exact List.forall_mem_nil _
  · exact (walk_of_leads _ _ _ _ h).isOrdinary

theorem allows_of_isOrdinary {id : String} {q : Request Call} (hq : q.isOrdinary)
    (hcreate : ∀ start limit, q ≠ .call (.createExecution start) limit) : Listing.allows o (.listed id) q := by
  cases q with
  | call c limit => cases c <;> first | exact absurd rfl (hcreate _ _) | rfl
  | now | token | awaitCancel => rfl
  | openToken | enlist | delist => cases hq

theorem after_of_isOrdinary {id : String} {x : Exchange (Request Call) (Request.Reply Call.Answer)} (hx : x.op.isOrdinary) :
    Listing.after (.listed id) x = .listed id := by
  obtain ⟨q, r⟩ := x
  cases q <;> first | rfl | cases hx

/-- While an execution is open its run stays on the list. -/
theorem stays_listed {id : String} (ht : ∀ x ∈ t, x.op.isOrdinary)
    (hcreate : ∀ m ∈ Course.calls t, ∀ start, m.call ≠ .createExecution start) :
    (listing o).Allows (Listing.listed id) t ∧ (listing o).stateAfter (Listing.listed id) t = Listing.listed id := by
  induction t with
  | nil => exact ⟨trivial, rfl⟩
  | cons x t ih =>
    obtain ⟨hx, ht⟩ := List.forall_mem_cons.mp ht
    have hlater : ∀ m ∈ Course.calls t, ∀ start, m.call ≠ .createExecution start := by
      intro m hm
      obtain ⟨limit, hm⟩ := Course.mem_calls.mp hm
      exact hcreate m (Course.mem_calls.mpr ⟨limit, List.mem_cons_of_mem _ hm⟩)
    have hafter : (listing o).after (Listing.listed id) x = Listing.listed id := after_of_isOrdinary hx
    rw [Rule.allows_cons, Rule.stateAfter_cons, hafter]
    refine ⟨⟨allows_of_isOrdinary hx ?_, (ih ht hlater).1⟩, (ih ht hlater).2⟩
    obtain ⟨q, r⟩ := x
    rintro start limit rfl
    exact hcreate ⟨.createExecution start, r⟩ (Course.mem_calls.mpr ⟨limit, List.mem_cons_self⟩) start rfl

/-- **Every run keeps to the rule of the list.** -/
theorem run_obeys_listing (g : Engine) (o : Order) : (g.run o).run.Obeys (listing o) Listing.unopened := by
  intro t result h
  obtain ⟨hvain, -⟩ | ⟨stored, vs, final, n, start, id, t', r, -, -, hconduct, rfl, -⟩ := leads_run h
  · cases hvain with
    | unfound => exact ⟨⟨rfl, trivial⟩, rfl⟩
    | unbegun => exact ⟨⟨rfl, rfl, trivial⟩, rfl⟩
    | refused => exact ⟨⟨rfl, rfl, rfl, trivial⟩, rfl⟩
  · obtain ⟨body, closing, r', rfl, hbody, hclosing⟩ := leads_conduct hconduct
    obtain ⟨hallows, hstate⟩ : (listing o).Allows (Listing.listed id) (body ++ closing) ∧
        (listing o).stateAfter (Listing.listed id) (body ++ closing) = Listing.listed id :=
      stays_listed (List.forall_mem_append.mpr ⟨body_isOrdinary hbody, hclosing.isOrdinary⟩)
        (inner_ne_createExecution hbody hclosing)
    have hopened : (listing o).stateAfter Listing.unopened (g.opening o stored n start id) = Listing.listed id := rfl
    have hopening : (listing o).Allows Listing.unopened (g.opening o stored n start id) :=
      ⟨rfl, rfl, rfl, trivial, ⟨rfl, rfl, rfl⟩, trivial⟩
    have hinner : (listing o).stateAfter Listing.unopened (g.opening o stored n start id ++ (body ++ closing)) =
        Listing.listed id := by
      rw [Rule.stateAfter_append, hopened, hstate]
    constructor
    · refine Rule.allows_append.mpr ⟨Rule.allows_append.mpr ⟨hopening, hopened ▸ hallows⟩, ?_⟩
      rw [hinner]
      exact ⟨rfl, trivial⟩
    · rw [Rule.stateAfter_append, hinner]
      rfl

/-! ## Which execution a run has created -/

namespace Listing

variable {σ : Listing} {x : Exchange (Request Call) (Request.Reply Call.Answer)} {id : String}

/-- What is asked of others does not create an execution. -/
theorem execution?_after (hx : ∀ start limit, x.op ≠ .call (.createExecution start) limit) :
    (σ.after x).execution? = σ.execution? := by
  obtain ⟨q, r⟩ := x
  cases q with
  | call c limit =>
    cases c with
    | createExecution start => exact absurd rfl (hx start limit)
    | _ => cases σ <;> rfl
  | _ => cases σ <;> rfl

theorem eq_of_after_eq_listed {q : Request Call} {r : q.Reply Call.Answer} (h : σ.after ⟨q, r⟩ = .listed id) :
    σ = .listed id ∨ σ = .bound id ∧ ∃ execution workflow tenant, q = .enlist execution workflow tenant := by
  cases q with
  | call c limit =>
    cases c with
    | createExecution start => cases σ <;> first | exact .inl h | (cases r <;> cases h)
    | _ => cases σ <;> exact .inl h
  | enlist execution workflow tenant =>
    cases σ with
    | bound id' =>
      cases h
      exact .inr ⟨rfl, _, _, _, rfl⟩
    | _ => exact .inl h
  | _ => cases σ <;> first | exact .inl h | cases h

theorem eq_of_after_eq_bound {q : Request Call} {r : q.Reply Call.Answer} (h : σ.after ⟨q, r⟩ = .bound id) :
    σ = .bound id ∨ ∃ timeout, q = .openToken timeout := by
  cases q with
  | call c limit =>
    cases c with
    | createExecution start => cases σ <;> first | exact .inl h | (cases r <;> cases h)
    | _ => cases σ <;> exact .inl h
  | openToken timeout => exact .inr ⟨timeout, rfl⟩
  | _ => cases σ <;> first | exact .inl h | cases h

/-- A run stays on the list until it asks to be taken off. -/
theorem after_listed {q : Request Call} {r : q.Reply Call.Answer} (hq : ∀ execution, q ≠ .delist execution) :
    after (.listed id) ⟨q, r⟩ = .listed id := by
  cases q <;> first | rfl | exact absurd rfl (hq _)

theorem eq_bound_of_allows {execution workflow tenant : String} (h : σ.allows o (.enlist execution workflow tenant)) :
    σ = .bound execution ∧ workflow = o.workflow ∧ tenant = o.actor.tenant := by
  cases σ with
  | bound id' =>
    obtain ⟨rfl, hworkflow, htenant⟩ := h
    exact ⟨rfl, hworkflow, htenant⟩
  | _ => cases h

theorem eq_listed_of_allows {execution : String} (h : σ.allows o (.delist execution)) : σ = .listed execution := by
  cases σ with
  | listed id' =>
    obtain rfl : execution = id' := h
    rfl
  | _ => cases h

/-- A run that waits is on the list if it has created an execution. -/
theorem eq_of_allows_slow {q : Request Call} (h : σ.allows o q) (hq : q.isSlow) : σ = .unopened ∨ ∃ id, σ = .listed id := by
  cases σ with
  | unopened => exact .inl rfl
  | listed id => exact .inr ⟨id, rfl⟩
  | _ => cases q <;> first | exact (h : False).elim | exact nomatch hq

/-- An execution is created by a run that has created none. -/
theorem eq_unopened_of_allows {start : ExecutionStart} {limit : Option Binary64}
    (h : σ.allows o (.call (.createExecution start) limit)) : σ = .unopened := by
  cases σ <;> first | rfl | cases h

end Listing

/-- The course creates an execution of this id. -/
def Creates (t : Course) (id : String) : Prop := ∃ start, ⟨.createExecution start, .ok id⟩ ∈ Course.calls t

theorem creates_cons_of_ne {x : Exchange (Request Call) (Request.Reply Call.Answer)} {id : String}
    (hx : ∀ start limit, x.op ≠ .call (.createExecution start) limit) : Creates (x :: t) id ↔ Creates t id := by
  refine exists_congr fun start => ?_
  rw [Course.mem_calls, Course.mem_calls]
  refine exists_congr fun limit => ?_
  rw [List.mem_cons, or_iff_right]
  rintro rfl
  exact hx start limit rfl

theorem creates_cons {start : ExecutionStart} {limit : Option Binary64} {r : Except Failure String} {id : String} :
    Creates (⟨.call (.createExecution start) limit, r⟩ :: t) id ↔ r = .ok id ∨ Creates t id := by
  constructor
  · rintro ⟨start', h⟩
    rcases List.mem_cons.mp h with h | h
    · cases h
      exact .inl rfl
    · exact .inr ⟨start', h⟩
  · rintro (rfl | ⟨start', h⟩)
    · exact ⟨start, List.mem_cons_self⟩
    · exact ⟨start', List.mem_cons_of_mem _ h⟩

theorem Creates.of_prefix {t' : Course} {id : String} (h : t <+: t') (hid : Creates t id) : Creates t' id := by
  obtain ⟨t'', rfl⟩ := h
  obtain ⟨start, hid⟩ := hid
  refine ⟨start, ?_⟩
  rw [Course.calls_append]
  exact List.mem_append_left _ hid

/-- **A run has created the execution** that its place on the list says. -/
theorem execution?_stateAfter {σ : Listing} {id : String} (h : (listing o).Allows σ t) :
    Listing.execution? ((listing o).stateAfter σ t) = some id ↔ σ.execution? = some id ∨ Creates t id := by
  induction t generalizing σ with
  | nil => exact ⟨.inl, fun h => h.resolve_right fun ⟨_, h⟩ => nomatch h⟩
  | cons x t ih =>
    obtain ⟨hx, ht⟩ := h
    rw [Rule.stateAfter_cons, ih ht]
    by_cases hcreate : ∃ start limit, x.op = .call (.createExecution start) limit
    · obtain ⟨q, r⟩ := x
      obtain ⟨start, limit, rfl⟩ := hcreate
      obtain rfl := Listing.eq_unopened_of_allows hx
      refine Iff.trans ?_ (or_congr_right (creates_cons (r := r))).symm
      rw [← or_assoc]
      refine or_congr_left ?_
      cases r with
      | ok id' =>
        show some id' = some id ↔ none = some id ∨ Except.ok id' = Except.ok id
        rw [or_iff_right nofun]
        exact ⟨fun h => congrArg Except.ok (Option.some.inj h), fun h => congrArg some (Except.ok.inj h)⟩
      | error f => exact ⟨nofun, fun h => h.elim nofun nofun⟩
    · have hne : ∀ start limit, x.op ≠ .call (.createExecution start) limit := fun start limit h => hcreate ⟨start, limit, h⟩
      rw [creates_cons_of_ne hne]
      have hsame : Listing.execution? ((listing o).after σ x) = σ.execution? := Listing.execution?_after hne
      rw [hsame]

/-! ## An engine that serves runs -/

/-- A run that is served: what it was asked for, and its tale. -/
structure Served (World : Type) (perform : (c : Call) → Work World (Except Failure c.Answer)) where
  order : Order
  tale : Tale (setting World perform)

section Serving

variable {World : Type} {perform : (c : Call) → Work World (Except Failure c.Answer)}
  {m m' : Moment (setting World perform)} {runs runs' : List (Served World perform)} {i j : Nat} {x y : Served World perform}

/-- What the run has been told. -/
def Served.course (x : Served World perform) : Course := x.tale.told

/-- Where the run is with its place on the list. -/
def Served.listing (x : Served World perform) : Listing := x.course.foldl Listing.after .unopened

theorem Served.listing_of_told {q : Request Call} {r : q.Reply Call.Answer} (h : y.course = x.course ++ [⟨q, r⟩]) :
    y.listing = x.listing.after ⟨q, r⟩ := by
  unfold Served.listing
  rw [h, List.foldl_append]
  rfl

/-- In a move from a moment to another every run goes on. -/
def Follow (m m' : Moment (setting World perform)) (runs runs' : List (Served World perform)) : Prop :=
  runs'.length = runs.length ∧ ∀ i x, runs[i]? = some x →
    ∃ y, runs'[i]? = some y ∧ y.order = x.order ∧ m'.In i y.tale.phase ∧ x.tale.Step i m y.tale

/-- The moments of an engine that serves runs, with the tales of the runs. It begins with no run; then runs are launched, and
anything may happen that may happen in a schedule. -/
inductive Serves (g : Engine) : Moment (setting World perform) → List (Served World perform) → Prop where
  | begin {s : Schedule (setting World perform)} : s.fibers = [] → s.running = [] → Serves g ⟨.idle, s⟩ []
  | launch {s : Schedule (setting World perform)} {runs : List (Served World perform)} (o : Order) (token : Option Nat) :
    Serves g ⟨.idle, s⟩ runs → Serves g (launched g o s token) (runs ++ [⟨o, ⟨[], .ready (g.run o).run⟩⟩])
  | move {m m' : Moment (setting World perform)} {runs runs' : List (Served World perform)} :
    Serves g m runs → Move m m' → m'.schedule.fibers.length = m.schedule.fibers.length → Follow m m' runs runs' →
      Serves g m' runs'

theorem Follow.back (h : Follow m m' runs runs') (hy : runs'[i]? = some y) :
    ∃ x, runs[i]? = some x ∧ y.order = x.order ∧ m'.In i y.tale.phase ∧ x.tale.Step i m y.tale := by
  have hi : i < runs.length := h.1 ▸ (List.getElem?_eq_some_iff.mp hy).1
  obtain ⟨y', hy', hfollow⟩ := h.2 i _ (List.getElem?_eq_getElem hi)
  obtain rfl := Option.some.inj (hy.symm.trans hy')
  exact ⟨_, List.getElem?_eq_getElem hi, hfollow⟩

/-- The tales of the runs are true, and keep to the rule of the list. -/
structure Sound (m : Moment (setting World perform)) (runs : List (Served World perform)) : Prop where
  count : m.schedule.fibers.length = runs.length
  busy : ∀ i : Nat, m.activity.IsOf i → i < runs.length
  phase : ∀ (i : Nat) (x : Served World perform), runs[i]? = some x → m.In i x.tale.phase
  obeys : ∀ (i : Nat) (x : Served World perform), runs[i]? = some x → x.tale.Obeys (listing x.order) Listing.unopened

theorem getElem?_concat_eq_some {α : Type} {l : List α} {a b : α} {i : Nat} (h : (l ++ [a])[i]? = some b) :
    l[i]? = some b ∨ i = l.length ∧ b = a := by
  rw [List.getElem?_append] at h
  split at h
  · exact .inl h
  · next hi =>
    obtain ⟨hlt, rfl⟩ := List.getElem?_eq_some_iff.mp h
    rw [List.length_singleton] at hlt
    exact .inr ⟨by omega, List.getElem_singleton _⟩

theorem Serves.sound (h : Serves g m runs) : Sound m runs := by
  induction h with
  | begin hfibers =>
    have hnone : ∀ (i : Nat) (x : Served World perform), ([] : List (Served World perform))[i]? ≠ some x := by
      intro i x hx
      rw [List.getElem?_nil] at hx
      cases hx
    exact ⟨by rw [hfibers]; rfl, nofun, fun i x hx => absurd hx (hnone i x), fun i x hx => absurd hx (hnone i x)⟩
  | @launch s runs o token _ ih =>
    refine ⟨?_, nofun, fun i x hx => ?_, fun i x hx => ?_⟩
    · show (s.fibers ++ [_]).length = (runs ++ [_]).length
      rw [List.length_append, List.length_append, ih.count]
      rfl
    · rcases getElem?_concat_eq_some hx with hx | ⟨rfl, rfl⟩
      · exact (ih.phase i x hx).launch _ _
      · rw [← ih.count]
        exact s.in_launch _ _
    · rcases getElem?_concat_eq_some hx with hx | ⟨rfl, rfl⟩
      · exact ih.obeys i x hx
      · exact ⟨trivial, rfl, run_obeys_listing g o⟩
  | @move m m' runs runs' _ hmove hcount hfollow ih =>
    refine ⟨by rw [hcount, ih.count, hfollow.1], fun i hi => ?_, fun i y hy => ?_, fun i y hy => ?_⟩
    · rw [hfollow.1]
      rcases hmove.isOf hi with hi | ⟨stage, hstage⟩
      · exact ih.busy i hi
      · obtain ⟨x, hx, -⟩ := Schedule.exists_fiber hstage
        exact ih.count ▸ (List.getElem?_eq_some_iff.mp hx).1
    · obtain ⟨x, -, -, hin, -⟩ := hfollow.back hy
      exact hin
    · obtain ⟨x, hx, horder, -, hstep⟩ := hfollow.back hy
      rw [horder]
      exact (ih.obeys i x hx).step hstep (obliging { id := .null, tenant := .null } "")

/-- Whatever an engine does, there are tales of it. -/
theorem Serves.exists_move (h : Serves g m runs) (hmove : Move m m')
    (hcount : m'.schedule.fibers.length = m.schedule.fibers.length) : ∃ runs', Serves g m' runs' := by
  have hnext : ∀ i : Fin runs.length, ∃ y : Served World perform, y.order = runs[i].order ∧ m'.In i y.tale.phase ∧
      runs[i].tale.Step i m y.tale := by
    intro i
    obtain ⟨φ', hin, hstep⟩ := hmove.phase (h.sound.phase i _ (List.getElem?_eq_getElem i.isLt))
    obtain ⟨t, htale⟩ := hstep.tale runs[i].tale.told
    exact ⟨⟨runs[i].order, ⟨t, φ'⟩⟩, rfl, hin, htale⟩
  obtain ⟨f, hf⟩ := Classical.axiomOfChoice hnext
  refine ⟨List.ofFn f, h.move hmove hcount ⟨List.length_ofFn, fun i x hx => ?_⟩⟩
  obtain ⟨hi, rfl⟩ := List.getElem?_eq_some_iff.mp hx
  exact ⟨f ⟨i, hi⟩, by rw [List.getElem?_ofFn, dif_pos hi], hf ⟨i, hi⟩⟩

theorem Serves.exists_goes (h : Serves g m runs) (hgoes : m.Goes m')
    (hcount : m'.schedule.fibers.length = m.schedule.fibers.length) : ∃ runs', Serves g m' runs' ∧ runs'.length = runs.length := by
  induction hgoes with
  | refl => exact ⟨runs, h, rfl⟩
  | @tail m₁ m₂ hgoes hmove ih =>
    have hfirst : m₁.schedule.fibers.length = m.schedule.fibers.length :=
      Nat.le_antisymm (hcount ▸ hmove.count_le) (Moment.Goes.count_le hgoes)
    obtain ⟨runs₁, h₁, hlength⟩ := ih hfirst
    have hlast := hcount.trans hfirst.symm
    obtain ⟨runs₂, h₂⟩ := h₁.exists_move hmove hlast
    refine ⟨runs₂, h₂, ?_⟩
    rw [← h₂.sound.count, hlast, h₁.sound.count, hlength]

/-! ## What is listed -/

/-- A run adds to what it was told nothing, or the answer to a request that it makes or has waited for. -/
theorem Served.listing_step (hstep : x.tale.Step i m y.tale) (hin : m.In i x.tale.phase)
    (hobeys : x.tale.Obeys (Engine.listing x.order) Listing.unopened) :
    y.listing = x.listing ∨ ∃ (q : Request Call) (r : q.Reply Call.Answer), y.listing = x.listing.after ⟨q, r⟩ ∧
      (m.Makes i q ∨ q.isSlow) := by
  obtain htold | ⟨q, r, htold, hq⟩ := hstep.told_eq hin fun _ _ hwaiting => hobeys.isSlow hwaiting
  · exact .inl (congrArg (List.foldl Listing.after .unopened) htold)
  · exact .inr ⟨q, r, listing_of_told htold, hq⟩

/-- A run that does not ask for it is neither listed nor taken off. -/
theorem Served.listed_iff (hstep : x.tale.Step i m y.tale) (hin : m.In i x.tale.phase)
    (hobeys : x.tale.Obeys (Engine.listing x.order) Listing.unopened)
    (henlist : ∀ execution workflow tenant, ¬ m.Makes i (.enlist execution workflow tenant))
    (hdelist : ∀ execution, ¬ m.Makes i (.delist execution)) (id : String) : y.listing = .listed id ↔ x.listing = .listed id := by
  obtain hsame | ⟨q, r, hafter, hq⟩ := listing_step hstep hin hobeys
  · rw [hsame]
  · rw [hafter]
    constructor
    · intro h
      obtain h | ⟨-, execution, workflow, tenant, rfl⟩ := Listing.eq_of_after_eq_listed h
      · exact h
      · exact (hq.resolve_right Bool.false_ne_true |> henlist _ _ _).elim
    · intro h
      rw [h]
      refine Listing.after_listed ?_
      rintro execution rfl
      exact hq.elim (hdelist execution) Bool.false_ne_true

/-- A request that is answered at once moves a run on. -/
theorem Served.listing_quick {q : Request Call} (hstep : x.tale.Step i m y.tale) (hin : m.In i x.tale.phase)
    (hq : m.Makes i q) (hquick : q.isSlow = false) : ∃ r, y.listing = x.listing.after ⟨q, r⟩ := by
  obtain ⟨next, hnext⟩ := hq
  obtain ⟨r, htold⟩ := hstep.told_of_quick (hin.eq_going hnext) hquick
  exact ⟨r, listing_of_told htold⟩

/-- No execution is created by two runs. -/
def AreDistinct (runs : List (Served World perform)) : Prop :=
  ∀ (i j : Nat) (x y : Served World perform) (id : String), runs[i]? = some x → runs[j]? = some y →
    Creates x.course id → Creates y.course id → i = j

/-- This is how a run is listed, by its tale. -/
def IsListed (s : Schedule (setting World perform)) (runs : List (Served World perform)) (i : Nat) (r : Listed) : Prop :=
  ∃ x, runs[i]? = some x ∧ x.listing = .listed r.execution ∧ r.workflow = x.order.workflow ∧ r.tenant = x.order.actor.tenant ∧
    s.tokenOf? i = some r.token

/-- The list is that of the runs that are listed by their tales. -/
structure Lists (s : Schedule (setting World perform)) (runs : List (Served World perform)) : Prop where
  owner : ∀ (i : Nat) (x : Served World perform) (id : String), runs[i]? = some x →
    x.listing = .bound id ∨ x.listing = .listed id → ∃ n, s.tokenOf? i = some n
  mem : ∀ r : Listed, r ∈ s.running ↔ ∃ i, IsListed s runs i r
  nodup : (s.running.map (·.execution)).Nodup

theorem Sound.creates (h : Sound m runs) (hx : runs[i]? = some x) {id : String} (hid : x.listing.execution? = some id) :
    Creates x.course id :=
  ((execution?_stateAfter (h.obeys i x hx).1).mp hid).resolve_left nofun

/-- Who makes a request is one of the runs, and it may make it. -/
theorem Sound.makes {q : Request Call} (h : Sound m runs) (hq : m.Makes i q) :
    ∃ x, runs[i]? = some x ∧ Listing.allows x.order x.listing q := by
  obtain ⟨next, hnext⟩ := id hq
  have hx := List.getElem?_eq_getElem (h.busy i (by rw [hnext]; rfl))
  exact ⟨_, hx, (h.obeys i _ hx).allows (h.phase i _ hx) hq (obliging { id := .null, tenant := .null } "")⟩

theorem AreDistinct.back (h : AreDistinct runs') (hfollow : Follow m m' runs runs') : AreDistinct runs := by
  intro i j x y id hx hy hxid hyid
  obtain ⟨x', hx', -, -, hxstep⟩ := hfollow.2 i x hx
  obtain ⟨y', hy', -, -, hystep⟩ := hfollow.2 j y hy
  exact h i j x' y' id hx' hy' (hxid.of_prefix hxstep.told_prefix) (hyid.of_prefix hystep.told_prefix)

section Step

variable (hs : Sound m runs) (hmove : Move m m') (hfollow : Follow m m' runs runs') (hlists : Lists m.schedule runs)

include hs hmove hfollow hlists

/-- A run that is listed, or will be at once, keeps its token. -/
theorem Lists.owner_move {y : Served World perform} {id : String} (hy : runs'[i]? = some y)
    (hid : y.listing = .bound id ∨ y.listing = .listed id) : ∃ n, m'.schedule.tokenOf? i = some n := by
  obtain ⟨x, hx, -, -, hstep⟩ := hfollow.back hy
  have hkept : x.listing = .bound id ∨ x.listing = .listed id → ∃ n, m'.schedule.tokenOf? i = some n := by
    intro hid
    obtain ⟨n, hn⟩ := hlists.owner i x id hx hid
    exact ⟨n, hmove.onward.owners i n hn⟩
  obtain hsame | ⟨q, r, hafter, hq⟩ := Served.listing_step hstep (hs.phase i x hx) (hs.obeys i x hx)
  · exact hkept (hsame ▸ hid)
  · rw [hafter] at hid
    rcases hid with hid | hid
    · obtain hid | ⟨timeout, rfl⟩ := Listing.eq_of_after_eq_bound hid
      · exact hkept (.inl hid)
      · obtain ⟨next, hnext⟩ := hq.resolve_right Bool.false_ne_true
        obtain ⟨stage, hstage⟩ := (hs.phase i x hx).stage
        obtain rfl : m' = m.next := hmove.eq_next_of_isOf (i := i) (by rw [hnext]; rfl)
        obtain ⟨activity, s⟩ := m
        cases hnext
        exact Schedule.exists_tokenOf?_openToken hstage timeout
    · obtain hid | ⟨hid, -⟩ := Listing.eq_of_after_eq_listed hid
      · exact hkept (.inr hid)
      · exact hkept (.inl hid)

/-- A run that does not ask for it is listed as before. -/
theorem Lists.isListed_iff (henlist : ∀ execution workflow tenant, ¬ m.Makes i (.enlist execution workflow tenant))
    (hdelist : ∀ execution, ¬ m.Makes i (.delist execution)) (r : Listed) :
    IsListed m'.schedule runs' i r ↔ IsListed m.schedule runs i r := by
  have hlisted : ∀ {x y : Served World perform}, runs[i]? = some x → x.tale.Step i m y.tale →
      (y.listing = .listed r.execution ↔ x.listing = .listed r.execution) := fun hx hstep =>
    Served.listed_iff hstep (hs.phase i _ hx) (hs.obeys i _ hx) henlist hdelist _
  constructor
  · rintro ⟨y, hy, hid, hworkflow, htenant, htoken⟩
    obtain ⟨x, hx, horder, -, hstep⟩ := hfollow.back hy
    rw [hlisted hx hstep] at hid
    obtain ⟨n, hn⟩ := hlists.owner i x _ hx (.inr hid)
    rw [hmove.onward.owners i n hn, ← hn] at htoken
    exact ⟨x, hx, hid, horder ▸ hworkflow, horder ▸ htenant, htoken⟩
  · rintro ⟨x, hx, hid, hworkflow, htenant, htoken⟩
    obtain ⟨y, hy, horder, -, hstep⟩ := hfollow.2 i x hx
    exact ⟨y, hy, (hlisted hx hstep).mpr hid, horder ▸ hworkflow, horder ▸ htenant, hmove.onward.owners i _ htoken⟩

/-- A run is listed as before while another one makes a request. -/
theorem Lists.isListed_iff_of_ne {q : Request Call} (hq : m.Makes j q) (hij : i ≠ j) (r : Listed) :
    IsListed m'.schedule runs' i r ↔ IsListed m.schedule runs i r :=
  hlists.isListed_iff hs hmove hfollow (fun _ _ _ h => hij (h.eq hq)) (fun _ h => hij (h.eq hq)) r

/-- The list stays as it is if no run asks to be listed or to be taken off. -/
theorem Lists.elsewhere (henlist : ∀ i execution workflow tenant, ¬ m.Makes i (.enlist execution workflow tenant))
    (hdelist : ∀ i execution, ¬ m.Makes i (.delist execution)) : Lists m'.schedule runs' := by
  have hrunning : m'.schedule.running = m.schedule.running := by
    obtain hsame | ⟨i, q, next, hactivity, rfl⟩ := hmove.running
    · exact hsame
    · refine (Schedule.Steady.respond ?_ ?_).running
      · rintro execution workflow tenant rfl
        exact henlist i _ _ _ ⟨next, hactivity⟩
      · rintro execution rfl
        exact hdelist i _ ⟨next, hactivity⟩
  refine ⟨fun i y id hy hid => hlists.owner_move hs hmove hfollow hy hid, fun r => ?_, hrunning ▸ hlists.nodup⟩
  rw [hrunning, hlists.mem]
  exact exists_congr fun i => (hlists.isListed_iff hs hmove hfollow (henlist i) (hdelist i) r).symm

variable (hd : AreDistinct runs)

include hd

/-- A run that asks to be listed is the only one with its execution, and is put at the end of the list. -/
theorem Lists.enlist {execution workflow tenant : String} (hq : m.Makes j (.enlist execution workflow tenant)) :
    Lists m'.schedule runs' := by
  obtain rfl := hq.eq_next hmove
  obtain ⟨x, hx, hallows⟩ := hs.makes hq
  obtain ⟨hbound, hworkflow, htenant⟩ := Listing.eq_bound_of_allows hallows
  obtain ⟨n, hn⟩ := hlists.owner j x execution hx (.inl hbound)
  obtain ⟨y, hy, horder, -, hstep⟩ := hfollow.2 j x hx
  have hlisted : y.listing = .listed execution := by
    obtain ⟨r, hafter⟩ := Served.listing_quick hstep (hs.phase j x hx) hq rfl
    rw [hafter, hbound]
    rfl
  have hnone : ∀ r, ¬ IsListed m.schedule runs j r := by
    rintro r ⟨x', hx', hid, -⟩
    obtain rfl := Option.some.inj (hx.symm.trans hx')
    rw [hbound] at hid
    cases hid
  have hfresh : ∀ r ∈ m.schedule.running, r.execution ≠ execution := by
    rintro r hr rfl
    obtain ⟨i, hi⟩ := (hlists.mem r).mp hr
    obtain ⟨x', hx', hid, -⟩ := id hi
    obtain rfl := hd i j x' x _ hx' hx (hs.creates hx' (by rw [hid]; rfl)) (hs.creates hx (by rw [hbound]; rfl))
    exact hnone r hi
  have hrunning : m.next.schedule.running = m.schedule.running ++ [⟨execution, workflow, tenant, n⟩] := by
    obtain ⟨next, hnext⟩ := hq
    obtain ⟨activity, s⟩ := m
    cases hnext
    exact Schedule.running_enlist hn hfresh
  refine ⟨fun i y id hy hid => hlists.owner_move hs hmove hfollow hy hid, fun r => ?_, ?_⟩
  · rw [hrunning, List.mem_append, List.mem_singleton, hlists.mem]
    constructor
    · rintro (⟨i, hi⟩ | rfl)
      · have hij : i ≠ j := by
          rintro rfl
          exact hnone r hi
        exact ⟨i, (hlists.isListed_iff_of_ne hs hmove hfollow hq hij r).mpr hi⟩
      · exact ⟨j, y, hy, hlisted, horder ▸ hworkflow, horder ▸ htenant, hmove.onward.owners j n hn⟩
    · rintro ⟨i, hi⟩
      by_cases hij : i = j
      · subst hij
        obtain ⟨y', hy', hid, hworkflow', htenant', htoken⟩ := hi
        obtain rfl := Option.some.inj (hy.symm.trans hy')
        rw [hlisted] at hid
        rw [hmove.onward.owners i n hn] at htoken
        obtain ⟨execution', workflow', tenant', token'⟩ := r
        cases hid
        cases htoken
        exact .inr (by rw [hworkflow, htenant, ← horder, ← hworkflow', ← htenant'])
      · exact .inl ⟨i, (hlists.isListed_iff_of_ne hs hmove hfollow hq hij r).mp hi⟩
  · rw [hrunning, List.map_append, List.nodup_append]
    refine ⟨hlists.nodup, List.pairwise_singleton _ _, ?_⟩
    rintro a ha b hb rfl
    obtain ⟨r, hr, rfl⟩ := List.mem_map.mp ha
    exact hfresh r hr (List.mem_singleton.mp hb)

/-- A run that asks to be taken off takes its own execution off the list, and no other. -/
theorem Lists.delist {execution : String} (hq : m.Makes j (.delist execution)) : Lists m'.schedule runs' := by
  obtain rfl := hq.eq_next hmove
  obtain ⟨x, hx, hallows⟩ := hs.makes hq
  have hlisted := Listing.eq_listed_of_allows hallows
  obtain ⟨y, hy, horder, -, hstep⟩ := hfollow.2 j x hx
  have hdelisted : y.listing = .delisted execution := by
    obtain ⟨r, hafter⟩ := Served.listing_quick hstep (hs.phase j x hx) hq rfl
    rw [hafter, hlisted]
    rfl
  have hown : ∀ {i : Nat} {r : Listed}, IsListed m.schedule runs i r → (i = j ↔ r.execution = execution) := by
    rintro i r ⟨x', hx', hid, -⟩
    constructor
    · rintro rfl
      obtain rfl := Option.some.inj (hx.symm.trans hx')
      exact Listing.listed.inj (hid.symm.trans hlisted)
    · rintro rfl
      exact hd i j x' x _ hx' hx (hs.creates hx' (by rw [hid]; rfl)) (hs.creates hx (by rw [hlisted]; rfl))
  have hrunning : m.next.schedule.running = m.schedule.running.filter (·.execution != execution) := by
    obtain ⟨next, hnext⟩ := hq
    obtain ⟨activity, s⟩ := m
    cases hnext
    rfl
  refine ⟨fun i y id hy hid => hlists.owner_move hs hmove hfollow hy hid, fun r => ?_, ?_⟩
  · rw [hrunning, List.mem_filter, bne_iff_ne, hlists.mem]
    constructor
    · rintro ⟨⟨i, hi⟩, hne⟩
      exact ⟨i, (hlists.isListed_iff_of_ne hs hmove hfollow hq (mt (hown hi).mp hne) r).mpr hi⟩
    · rintro ⟨i, hi⟩
      have hij : i ≠ j := by
        rintro rfl
        obtain ⟨y', hy', hid, -⟩ := hi
        obtain rfl := Option.some.inj (hy.symm.trans hy')
        rw [hdelisted] at hid
        cases hid
      rw [hlists.isListed_iff_of_ne hs hmove hfollow hq hij r] at hi
      exact ⟨⟨i, hi⟩, mt (hown hi).mpr hij⟩
  · rw [hrunning]
    exact hlists.nodup.sublist (List.filter_sublist.map _)

end Step

theorem getElem?_concat_of_eq_some {α : Type} {l : List α} {a b : α} {i : Nat} (h : l[i]? = some a) :
    (l ++ [b])[i]? = some a := by
  rw [List.getElem?_append_left (List.getElem?_eq_some_iff.mp h).1, h]

/-- A run that is added is not on the list. -/
theorem Lists.launch {s : Schedule (setting World perform)} (g : Engine) (o : Order) (token : Option Nat) (h : Lists s runs) :
    Lists (launched g o s token).schedule (runs ++ [⟨o, ⟨[], .ready (g.run o).run⟩⟩]) := by
  have howners := (Move.launch s (g.run o).run token).onward.owners
  refine ⟨fun i x id hx hid => ?_, fun r => ?_, h.nodup⟩
  · rcases getElem?_concat_eq_some hx with hx | ⟨-, rfl⟩
    · obtain ⟨n, hn⟩ := h.owner i x id hx hid
      exact ⟨n, howners i n hn⟩
    · rcases hid with hid | hid <;> cases hid
  · refine (h.mem r).trans (exists_congr fun i => ⟨?_, ?_⟩)
    · rintro ⟨x, hx, hid, hworkflow, htenant, htoken⟩
      exact ⟨x, getElem?_concat_of_eq_some hx, hid, hworkflow, htenant, howners i _ htoken⟩
    · rintro ⟨x, hx, hid, hworkflow, htenant, htoken⟩
      rcases getElem?_concat_eq_some hx with hx | ⟨-, rfl⟩
      · obtain ⟨n, hn⟩ := h.owner i x _ hx (.inr hid)
        obtain rfl := Option.some.inj ((howners i n hn).symm.trans htoken)
        exact ⟨x, hx, hid, hworkflow, htenant, hn⟩
      · cases hid

/-- **The list is that of the runs that are listed by their tales**, at every moment. -/
theorem Serves.lists {g : Engine} (h : Serves g m runs) (hd : AreDistinct runs) : Lists m.schedule runs := by
  induction h with
  | begin hfibers hrunning =>
    refine ⟨fun i x id hx _ => ?_, fun r => ?_, ?_⟩
    · rw [List.getElem?_nil] at hx
      cases hx
    · rw [hrunning]
      refine ⟨(nomatch ·), ?_⟩
      rintro ⟨i, x, hx, -⟩
      rw [List.getElem?_nil] at hx
      cases hx
    · rw [hrunning]
      exact List.Pairwise.nil
  | @launch s runs o token _ ih =>
    refine Lists.launch g o token (ih fun i j x y id hx hy => ?_)
    exact hd i j x y id (getElem?_concat_of_eq_some hx) (getElem?_concat_of_eq_some hy)
  | @move m m' runs runs' hserves hmove _ hfollow ih =>
    have hd := hd.back hfollow
    have hlists := ih hd
    by_cases henlist : ∃ j execution workflow tenant, m.Makes j (.enlist execution workflow tenant)
    · obtain ⟨j, execution, workflow, tenant, hq⟩ := henlist
      exact hlists.enlist hserves.sound hmove hfollow hd hq
    by_cases hdelist : ∃ j execution, m.Makes j (.delist execution)
    · obtain ⟨j, execution, hq⟩ := hdelist
      exact hlists.delist hserves.sound hmove hfollow hd hq
    · exact hlists.elsewhere hserves.sound hmove hfollow (fun i _ _ _ hq => henlist ⟨i, _, _, _, hq⟩)
        fun i _ hq => hdelist ⟨i, _, hq⟩

/-! ## Which executions are running -/

theorem result?_eq_none_iff {φ : Phase (setting World perform)} (h : m.In i φ) :
    m.schedule.result? i = none ↔ ∀ result, φ ≠ .ended result := by
  constructor
  · rintro hnone result rfl
    cases h with
    | ended _ hstage =>
      unfold Schedule.result? at hnone
      rw [hstage] at hnone
      cases hnone
  · intro hφ
    cases hresult : m.schedule.result? i with
    | none => rfl
    | some result => exact absurd (h.eq_ended hresult) (hφ result)

/-- Where no run goes on just now, a run is listed if its execution has been created and it has not ended. -/
theorem Sound.listed_iff (h : Sound m runs) (hx : runs[i]? = some x) (hidle : ∀ rest, m.activity ≠ .run i rest) (id : String) :
    x.listing = .listed id ↔ Creates x.course id ∧ m.schedule.result? i = none := by
  have hin := h.phase i x hx
  obtain ⟨hallows, hphase⟩ := h.obeys i x hx
  rw [result?_eq_none_iff hin]
  have hcreates : x.listing.execution? = some id ↔ Creates x.course id :=
    (execution?_stateAfter hallows).trans (or_iff_right nofun)
  rw [← hcreates]
  obtain ⟨o, ⟨told, φ⟩⟩ := x
  have hnone : told = [] → Served.listing (⟨o, ⟨told, φ⟩⟩ : Served World perform) = .unopened := fun h => h ▸ rfl
  have hslow : ∀ {q : Request Call}, q.isSlow → Listing.allows o (Served.listing (⟨o, ⟨told, φ⟩⟩ : Served World perform)) q →
      (Served.listing (⟨o, ⟨told, φ⟩⟩ : Served World perform) = .listed id ↔
        (Served.listing (⟨o, ⟨told, φ⟩⟩ : Served World perform)).execution? = some id) := by
    intro q hq hallows
    obtain h | ⟨id', h⟩ := Listing.eq_of_allows_slow hallows hq
    · rw [h]
      exact ⟨nofun, nofun⟩
    · rw [h]
      exact ⟨fun h => congrArg Listing.execution? h, fun h => congrArg Listing.listed (Option.some.inj h)⟩
  cases φ with
  | ready rest =>
    rw [hnone hphase.1]
    exact ⟨nofun, nofun⟩
  | going rest => exact absurd hin.activity_eq (hidle rest)
  | called q next =>
    rw [hslow hphase.1 hphase.2.1]
    exact (and_iff_left nofun).symm
  | waiting q next =>
    rw [hslow hphase.1 hphase.2.1]
    exact (and_iff_left nofun).symm
  | ended result =>
    refine ⟨fun hid => ?_, fun h => absurd rfl (h.2 result)⟩
    rcases hphase with hnil | ⟨a, hends⟩
    · rw [hnone hnil] at hid
      cases hid
    · have hsettled : (Served.listing (⟨o, ⟨told, .ended result⟩⟩ : Served World perform)).isSettled := hends
      rw [hid] at hsettled
      cases hsettled

/-- **Which executions are listed**, whatever happens to an engine that serves any number of runs, if no execution is created
twice. Whenever somebody can look, and that is when no run is going on just now, the list holds exactly the executions that have
been created and whose runs have not ended, each of them once, with the workflow and the tenant of its run and whether the token
of the run is cancelled. To cancel an execution is to find it on the list. -/
theorem running_executions_are_listed {g : Engine} (h : Serves g m runs) (hd : AreDistinct runs)
    (hidle : ∀ i rest, m.activity ≠ .run i rest) :
    (∀ r : Running, r ∈ m.schedule.runningList ↔ ∃ i x, runs[i]? = some x ∧ Creates x.course r.execution ∧
      m.schedule.result? i = none ∧ r.workflow = x.order.workflow ∧ r.tenant = x.order.actor.tenant ∧
        r.cancelled = (m.schedule.tokenView i).token.cancelled.isSome) ∧
    (m.schedule.runningList.map (·.execution)).Nodup ∧
    ∀ execution reason, (m.schedule.cancelExecution execution reason).1 = true ↔
      ∃ r ∈ m.schedule.runningList, r.execution = execution := by
  have hlists := h.lists hd
  have hcancelled : ∀ {i n : Nat}, m.schedule.tokenOf? i = some n →
      (m.schedule.tokenView i).token.cancelled.isSome = (m.schedule.tokens[n]?.bind (·.cancelled)).isSome := by
    intro i n hn
    unfold Schedule.tokenView
    rw [hn, Option.bind_some]
    cases m.schedule.tokens[n]? <;> rfl
  refine ⟨fun r => ?_, ?_, fun execution reason => ?_⟩
  · unfold Schedule.runningList
    rw [List.mem_map]
    constructor
    · rintro ⟨l, hl, rfl⟩
      obtain ⟨i, x, hx, hid, hworkflow, htenant, htoken⟩ := (hlists.mem l).mp hl
      obtain ⟨hcreates, hresult⟩ := (h.sound.listed_iff hx (hidle i) _).mp hid
      exact ⟨i, x, hx, hcreates, hresult, hworkflow, htenant, (hcancelled htoken).symm⟩
    · rintro ⟨i, x, hx, hcreates, hresult, hworkflow, htenant, hflag⟩
      have hid := (h.sound.listed_iff hx (hidle i) _).mpr ⟨hcreates, hresult⟩
      obtain ⟨n, hn⟩ := hlists.owner i x _ hx (.inr hid)
      refine ⟨⟨r.execution, r.workflow, r.tenant, n⟩, (hlists.mem _).mpr ⟨i, x, hx, hid, hworkflow, htenant, hn⟩, ?_⟩
      obtain ⟨execution, workflow, tenant, cancelled⟩ := r
      obtain rfl : cancelled = _ := hflag
      rw [hcancelled hn]
  · unfold Schedule.runningList
    rw [List.map_map]
    exact hlists.nodup
  · unfold Schedule.cancelExecution Schedule.runningList
    cases hfind : m.schedule.running.find? (·.execution == execution) with
    | some l =>
      have hl := List.find?_some hfind
      exact iff_of_true rfl ⟨_, List.mem_map.mpr ⟨l, List.mem_of_find?_eq_some hfind, rfl⟩, eq_of_beq hl⟩
    | none =>
      refine iff_of_false Bool.false_ne_true ?_
      rintro ⟨r, hr, hexecution⟩
      obtain ⟨l, hl, rfl⟩ := List.mem_map.mp hr
      exact List.find?_eq_none.mp hfind l hl (beq_iff_eq.mpr hexecution)

end Serving

end Engine

namespace Checking

/-- The execution of a run that waits is listed, and so it is found when it is cancelled. -/
theorem listed_when_cancelled :
    ∃ runs x, Engine.Serves {} (cancelling "first") runs ∧ runs[0]? = some x ∧ Engine.Creates x.course "execution" ∧
      (cancelling "first").schedule.result? 0 = none ∧
      ∃ r ∈ (cancelling "first").schedule.runningList, r.execution = "execution" ∧ r.workflow = x.order.workflow := by
  have hcount : (cancelling "first").schedule.fibers.length = 1 := by
    rw [cancelling_eq]
    decide +kernel
  have hbegin : Engine.Serves {} (beginning "first") [⟨order, ⟨[], .ready (({} : Engine).run order).run⟩⟩] :=
    (Engine.Serves.begin rfl rfl).launch order none
  obtain ⟨runs, h, hlength⟩ := hbegin.exists_goes (goes_cancelling "first") hcount
  have hzero : ∀ {i : Nat} {x : Engine.Served (List String) (closing "first")}, runs[i]? = some x → i = 0 := by
    intro i x hx
    have hi := (List.getElem?_eq_some_iff.mp hx).1
    rw [hlength] at hi
    exact Nat.lt_one_iff.mp hi
  have hidle : ∀ i rest, (cancelling "first").activity ≠ .run i rest := by
    intro i rest hactivity
    have heffect : (cancelling "first").activity.effect? = some (.cancel "execution" "stop") := effect_cancelling (.inl rfl)
    rw [hactivity] at heffect
    cases heffect
  obtain ⟨hmem, -, hcancel⟩ := Engine.running_executions_are_listed h
    (fun i j x y id hx hy _ _ => (hzero hx).trans (hzero hy).symm) hidle
  obtain ⟨r, hr, hexecution⟩ := (hcancel "execution" "stop").mp (by
    obtain ⟨listed, hfound, -⟩ := found_cancelling (.inl rfl)
    unfold Schedule.cancelExecution
    rw [hfound])
  obtain ⟨i, x, hx, hcreates, hresult, hworkflow, -, -⟩ := (hmem r).mp hr
  obtain rfl := hzero hx
  rw [hexecution] at hcreates
  exact ⟨runs, x, h, hx, hcreates, hresult, r, hr, hexecution, hworkflow⟩

end Checking

end Runbook
