import Runbook.Proofs.Ledger

/-!
# How a run keeps its books

A run records what it does in order and without a limit of time. It changes only records that it has opened itself, under the id
that it was answered and for the tenant of its actor, and whatever it gives to a column of JSON is a form that JSON gives back.

* `Entry.HaveOpened`: the records that entries have opened; `Call.KeepsBooks`: a call that goes on from entries as it may.
* `bookkeeping`: the rule of the books. **`Engine.run_obeys_bookkeeping`**: every run keeps to it.
-/

namespace Runbook

/-- These entries have opened a record of this table under this id, for this tenant. -/
def Entry.HaveOpened (es : List Entry) (r : Relation) (tenant id : String) : Prop :=
  ∃ fields, .opens r id fields ∈ es ∧ fields.get? "tenant_id" = some (.str tenant)

/-- A request to the audit. -/
def Request.isAudit : Request Call → Bool
  | call c _ => c.isAudit
  | _ => false

/-- A call that the books of a tenant take after these entries, if it is one of the audit. -/
def Call.KeepsBooks (tenant : String) (es : List Entry) : Call → Prop
  | createExecution start => start.tenant = tenant ∧ start.input.jsonForm = .ok start.input.stored ∧
    start.startVariables.jsonForm = .ok start.startVariables.stored
  | updateExecution owner id last => owner = tenant ∧ Entry.HaveOpened es .executions tenant id ∧
    last.finalVariables.jsonForm = .ok last.finalVariables.stored
  | createStepRun start => start.tenant = tenant
  | updateStepRun owner id _ => owner = tenant ∧ Entry.HaveOpened es .stepRuns tenant id
  | _ => True

/-- The rule of the books of a tenant. It keeps all exchanges of the run. -/
abbrev bookkeeping (tenant : String) : Rule (Request Call) (Request.Reply Call.Answer) (Except Failure Execution) where
  State := Course
  allows t q := ∀ c limit, q = .call c limit → c.isAudit → limit = none ∧ c.KeepsBooks tenant t.entries
  after t x := t ++ [x]
  ends _ _ := True

section Rules

variable {tenant : String} {σ t t' : Course}

theorem stateAfter_bookkeeping : (bookkeeping tenant).stateAfter σ t = σ ++ t := by
  induction t generalizing σ with
  | nil => exact (List.append_nil σ).symm
  | cons x t ih =>
    rw [Rule.stateAfter_cons, ih]
    exact List.append_assoc σ [x] t

theorem bookkeeping_append : (bookkeeping tenant).Allows σ (t ++ t') ↔
    (bookkeeping tenant).Allows σ t ∧ (bookkeeping tenant).Allows (σ ++ t) t' := by
  rw [Rule.allows_append, stateAfter_bookkeeping]

/-- What is asked of others the books always allow. -/
theorem bookkeeping_of_isAudit (h : ∀ m ∈ t.calls, m.call.isAudit = false) : (bookkeeping tenant).Allows σ t := by
  refine Rule.allows_of_forall ?_
  rintro ⟨q, r⟩ hx - c limit rfl hc
  exact absurd hc (Bool.eq_false_iff.mp (h ⟨c, r⟩ (Course.mem_calls.mpr ⟨limit, hx⟩)))

theorem bookkeeping_cons {x : Exchange (Request Call) (Request.Reply Call.Answer)} (hx : x.op.isAudit = false)
    (h : (bookkeeping tenant).Allows (σ ++ [x]) t) : (bookkeeping tenant).Allows σ (x :: t) := by
  refine ⟨fun c limit hc haudit => ?_, h⟩
  rw [hc] at hx
  exact absurd haudit (Bool.eq_false_iff.mp hx)

theorem bookkeeping_call {c : Call} {r : Except Failure c.Answer} (h : c.KeepsBooks tenant σ.entries) :
    (bookkeeping tenant).Allows σ [⟨.call c none, r⟩] := by
  refine ⟨?_, trivial⟩
  rintro _ _ ⟨⟩ -
  exact ⟨rfl, h⟩

theorem Call.isAudit_of_isErrand {c : Call} (h : c.isErrand) : c.isAudit = false := by
  cases c <;> first | rfl | cases h

end Rules

namespace Engine

variable {g : Engine} {o : Order} {e : Opened} {part : Part} {vs vs' : Variables} {t : Course} {r : Except Failure Unit}

/-- A walk keeps the books, whatever is in them. -/
theorem Walk.keepsBooks (h : Walk g e part vs t r vs') (σ : Course) : (bookkeeping e.actor.tenant).Allows σ t := by
  induction h generalizing σ with
  | finished | unknown | unlisted | ended => trivial
  | stopped => exact bookkeeping_of_isAudit (List.forall_mem_nil _)
  | fails _ _ ih => exact bookkeeping_cons rfl (ih _)
  | goesOn _ _ _ ih ih' => exact bookkeeping_append.mpr ⟨bookkeeping_cons rfl (ih _), ih' _⟩
  | refused => exact bookkeeping_cons rfl (bookkeeping_call rfl)
  | @recorded path task vs vs' n n' id t r a _ _ ih =>
    have hstart : (bookkeeping e.actor.tenant).Allows (σ ++ [⟨.now, n⟩])
        [⟨.call (.createStepRun (e.startOf path task.kind n)) none, (.ok id : Except Failure String)⟩] :=
      bookkeeping_call rfl
    refine bookkeeping_append.mpr ⟨bookkeeping_cons rfl ⟨hstart.1, ih _⟩, bookkeeping_cons rfl (bookkeeping_call ⟨rfl, ?_⟩)⟩
    refine ⟨(e.startOf path task.kind n).fields, ?_, rfl⟩
    show Entry.opens .stepRuns id (e.startOf path task.kind n).fields ∈ Course.entries (σ ++ _ ++ _)
    rw [Course.entries_append, Course.entries_append]
    exact List.mem_append_left _ (List.mem_append_right _ List.mem_cons_self)
  | plain hp h => exact bookkeeping_of_isAudit fun m hm => Call.isAudit_of_isErrand (calls_of_plain hp h m hm)
  | looped _ _ ih | broken _ ih => exact ih σ
  | again _ _ ih ih' => exact bookkeeping_append.mpr ⟨ih σ, ih' _⟩

theorem body_keepsBooks {stored : StoredWorkflow} (h : (g.body e stored).Leads vs t r vs') (σ : Course) :
    (bookkeeping e.actor.tenant).Allows σ t := by
  obtain ⟨f, -, rfl, -, -⟩ | ⟨w, -, h⟩ := leads_body h
  · trivial
  · exact (walk_of_leads _ _ _ _ h).keepsBooks σ

theorem Closing.keepsBooks {r' : Except Failure Unit} {σ : Course} (h : Closing e r vs t r')
    (hopen : Entry.HaveOpened σ.entries .executions e.actor.tenant e.id) : (bookkeeping e.actor.tenant).Allows σ t := by
  cases h with
  | unrecorded => exact bookkeeping_of_isAudit (List.forall_mem_nil _)
  | @recorded n w a hw =>
    refine bookkeeping_cons rfl (bookkeeping_call ⟨rfl, ?_, Value.jsonForm_of_recorded hw⟩)
    show Entry.HaveOpened (Course.entries (σ ++ [⟨.now, n⟩])) .executions e.actor.tenant e.id
    rw [Course.entries_append]
    obtain ⟨fields, hmem, howner⟩ := hopen
    exact ⟨fields, List.mem_append_left _ hmem, howner⟩

/-- The start of an execution is one that the books take. -/
theorem Order.Starts.keepsBooks {start : ExecutionStart} (h : o.Starts vs start) (es : List Entry) :
    (Call.createExecution start).KeepsBooks o.actor.tenant es :=
  ⟨h.tenant, Value.jsonForm_of_recorded h.input, Value.jsonForm_of_recorded h.initial⟩

/-- **Every run keeps its books.** -/
theorem run_obeys_bookkeeping (g : Engine) (o : Order) : (g.run o).run.Obeys (bookkeeping o.actor.tenant) [] := by
  intro t result h
  refine ⟨?_, trivial⟩
  obtain ⟨hvain, -⟩ | ⟨stored, vs, final, n, start, id, t', r, -, hstart, hconduct, rfl, -⟩ := leads_run h
  · cases hvain with
    | unfound | unbegun => exact bookkeeping_of_isAudit (List.forall_mem_singleton.mpr rfl)
    | refused hstart => exact bookkeeping_cons rfl (bookkeeping_cons rfl (bookkeeping_call (Order.Starts.keepsBooks hstart _)))
  · obtain ⟨body, closing, r', rfl, hbody, hclosing⟩ := leads_conduct hconduct
    have hcreate : (bookkeeping o.actor.tenant).Allows (g.opening o stored n start id |>.take 2)
        [⟨.call (.createExecution start) none, (.ok id : Except Failure String)⟩] :=
      bookkeeping_call (Order.Starts.keepsBooks hstart _)
    have hopening : (bookkeeping o.actor.tenant).Allows [] (g.opening o stored n start id) :=
      bookkeeping_cons rfl (bookkeeping_cons rfl ⟨hcreate.1, bookkeeping_cons rfl (bookkeeping_cons rfl trivial)⟩)
    have hopened : Entry.HaveOpened (Course.entries (g.opening o stored n start id ++ body)) .executions o.actor.tenant id := by
      refine ⟨start.fields, ?_, by rw [← hstart.tenant]; rfl⟩
      rw [Course.entries_append]
      exact List.mem_append_left _ List.mem_cons_self
    rw [← List.append_assoc (g.opening o stored n start id)]
    exact bookkeeping_append.mpr ⟨bookkeeping_append.mpr ⟨bookkeeping_append.mpr ⟨hopening, body_keepsBooks hbody _⟩,
      hclosing.keepsBooks hopened⟩, bookkeeping_cons rfl trivial⟩

end Engine

end Runbook
