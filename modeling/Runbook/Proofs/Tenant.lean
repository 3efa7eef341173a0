import Runbook.Proofs.Doing
import Runbook.Proofs.Heed
import Runbook.Proofs.Within

/-!
# Runs stay within their tenant

A run makes all its calls for the tenant of its actor, whatever is in the data of its steps, and every call that is made for a
tenant changes the database within this tenant only. So what a run does to the database, by itself or by its assistant, amid any
other runs, it does to rows of its tenant.

* `Call.isFor`: a call that is made for a tenant. **`Engine.calls_isFor`**: all calls of a run are.
* **`Call.keepsWithin`**: the statements that are made for such a call stay within the tenant.
* **`Engine.run_stays_within`**: so does everything that a run does.
-/

namespace Runbook

/-! ## Calls of a run -/

/-- A call that is made for a tenant, if it is made for one. -/
def Call.isFor (tenant : String) : Call → Bool
  | getWorkflow t _ | updateExecution t .. | updateStepRun t .. | insert _ t _ | update _ t .. => t == tenant
  | createExecution record => record.tenant == tenant
  | createStepRun record => record.tenant == tenant
  | notify recipients _ => recipients.all (·.tenant == tenant)
  | freshId | sendEmail _ | http _ | closeHttp => true

theorem Call.isFor_of_isWeb {c : Call} {tenant : String} (h : c.isWeb) : c.isFor tenant := by
  cases c <;> first | rfl | cases h

/-- **The calls of an action** are made for the tenant of its actor, whatever its data say. -/
theorem Action.perform_isFor (a : Action) (registry : Registry) (sender : String) (actor : Actor) :
    (a.perform registry sender actor).Tame (Call.isFor actor.tenant) := by
  cases a with
  | sendEmail => exact .guarded rfl
  | createRecord table data =>
    exact .bind .liftExcept fun _ => .bind (.call rfl) fun _ => .bind .now fun _ => .guarded (beq_self_eq_true _)
  | updateRecord table record data =>
    exact .bind .liftExcept fun _ => .bind .now fun _ => .bind (.guarded (beq_self_eq_true _)) fun _ => .liftExcept
  | sendNotification addressees =>
    refine .guarded (List.all_eq_true.mpr fun recipient hrecipient => ?_)
    obtain ⟨a, -, rfl⟩ := List.mem_map.mp hrecipient
    exact beq_self_eq_true _

namespace Engine

variable {g : Engine} {o : Order} {e : Opened} {part : Part} {path : StepPath} {vs vs' : Variables} {t : Course}
  {r : Except Failure Unit}

theorem isFor_of_plain {task : Task} (hp : task.isPlain) (h : (g.execute e path task).Leads vs t r vs') :
    ∀ m ∈ t.calls, m.call.isFor e.actor.tenant := by
  match task with
  | .condition .. =>
    rw [(leads_compare h).1]
    exact List.forall_mem_nil _
  | .action a =>
    have hperform : (g.execute e path (.action a)).Tame (Call.isFor e.actor.tenant) :=
      .bind .liftExcept fun _ => a.perform_isFor ..
    exact hperform.calls h
  | .delay milliseconds =>
    intro m hm
    cases (delay_tame milliseconds).calls h m hm
  | .webhook w =>
    intro m hm
    obtain ⟨f, hw, -⟩ | ⟨v, hw, -, -⟩ := leads_webhook h
    · exact Call.isFor_of_isWeb ((w.run_tame g.webhook).calls hw m hm)
    · exact Call.isFor_of_isWeb ((w.run_tame g.webhook).calls hw m hm)

/-- The calls of a walk are made for the tenant of its execution. -/
theorem Walk.isFor (h : Walk g e part vs t r vs') : ∀ m ∈ t.calls, m.call.isFor e.actor.tenant :=
  h.forall_calls (P := fun c => c.isFor e.actor.tenant) (fun _ => beq_iff_eq.mpr) (fun _ _ => beq_self_eq_true _)
    isFor_of_plain

theorem Vain.isFor (h : Vain o t) : ∀ m ∈ t.calls, m.call.isFor o.actor.tenant := by
  have hself : o.actor.tenant == o.actor.tenant := beq_self_eq_true _
  cases h with
  | unfound | unbegun => exact List.forall_mem_singleton.mpr hself
  | refused hstart => exact List.forall_mem_cons.mpr ⟨hself, List.forall_mem_singleton.mpr (beq_iff_eq.mpr hstart.tenant)⟩

theorem Closing.isFor {r' : Except Failure Unit} (h : Closing e r vs t r') : ∀ m ∈ t.calls, m.call.isFor e.actor.tenant := by
  cases h with
  | unrecorded => exact List.forall_mem_nil _
  | recorded => exact List.forall_mem_singleton.mpr (beq_self_eq_true e.actor.tenant)

/-- **All calls of a run** are made for the tenant of its actor. -/
theorem calls_isFor {result : Except Failure Execution} (h : (g.run o).run.Leads t result) :
    ∀ m ∈ t.calls, m.call.isFor o.actor.tenant := by
  obtain ⟨hvain, -⟩ | ⟨stored, vs, final, n, start, id, t', r, -, hstart, hconduct, rfl, -⟩ := leads_run h
  · exact hvain.isFor
  · obtain ⟨body, closing, r', rfl, hbody, hclosing⟩ := leads_conduct hconduct
    have hopening : ∀ m ∈ Course.calls (g.opening o stored n start id), m.call.isFor o.actor.tenant :=
      List.forall_mem_cons.mpr ⟨beq_self_eq_true o.actor.tenant, List.forall_mem_singleton.mpr (beq_iff_eq.mpr hstart.tenant)⟩
    have hsteps : ∀ m ∈ Course.calls body, m.call.isFor o.actor.tenant := by
      obtain ⟨f, -, rfl, -, -⟩ | ⟨w, -, hw⟩ := leads_body hbody
      · exact List.forall_mem_nil _
      · exact (walk_of_leads _ _ _ _ hw).isFor
    rw [Course.calls_append, Course.calls_append, Course.calls_append]
    exact List.forall_mem_append.mpr ⟨List.forall_mem_append.mpr ⟨hopening, List.forall_mem_append.mpr ⟨hsteps,
      hclosing.isFor⟩⟩, List.forall_mem_nil _⟩

end Engine

/-- The rule by which runs stay with their tenant. -/
def staying (tenant : String) : Rule (Request Call) (Request.Reply Call.Answer) (Except Failure Execution) where
  State := Unit
  allows _ q := ∀ c limit, q = .call c limit → c.isFor tenant
  after _ _ := ()
  ends _ _ := True

theorem Engine.run_obeys_staying (g : Engine) (o : Order) : (g.run o).run.Obeys (staying o.actor.tenant) () := by
  intro t result h
  refine ⟨Rule.allows_of_forall ?_, trivial⟩
  rintro ⟨q, reply⟩ hx - c limit rfl
  exact calls_isFor h ⟨c, reply⟩ (Course.mem_calls.mpr ⟨limit, hx⟩)

/-! ## What is done for a call -/

instance {tenant : String} : Std.Refl (Database.Within tenant) := ⟨Database.Within.refl⟩

instance {tenant : String} : IsTrans Database (Database.Within tenant) := ⟨fun _ _ _ => Database.Within.trans⟩

/-- The record that closes an execution names neither its id nor its owner. -/
theorem ExecutionEnd.names (record : ExecutionEnd) :
    record.fields.get? "id" = none ∧ record.fields.get? "tenant_id" = none := by
  obtain ⟨outcome, completedAt, milliseconds, final⟩ := record
  cases outcome <;> exact ⟨rfl, rfl⟩

/-- Nor does the record that closes a step run. -/
theorem StepRunEnd.names (record : StepRunEnd) :
    record.fields.get? "id" = none ∧ record.fields.get? "tenant_id" = none := by
  obtain ⟨outcome, completedAt, milliseconds⟩ := record
  cases outcome <;> exact ⟨rfl, rfl⟩

/-- **The statements of a call of a tenant** change the database within the tenant only. -/
theorem Call.keepsWithin {tenant : String} {c : Call} (hc : c.isFor tenant) : c.Keeps (Database.Within tenant) := by
  have hself : ∀ t : String, (t == tenant) = true → t = tenant := fun _ => beq_iff_eq.mp
  cases c with
  | createExecution record | createStepRun record =>
    obtain rfl := hself _ hc
    exact fun db => Database.create_within rfl
  | updateExecution t id record | updateStepRun t id record =>
    obtain rfl := hself _ hc
    exact fun db db' h => Database.update_within record.names.1 record.names.2 h
  | freshId => exact Database.within_freshId
  | notify recipients payload =>
    intro recipient hrecipient db
    obtain rfl := hself _ (List.all_eq_true.mp hc recipient hrecipient)
    exact Database.record_within recipient payload
  | insert table t record =>
    obtain rfl := hself _ hc
    exact fun db => Database.insertRecord_within table record
  | update table t id fields =>
    obtain rfl := hself _ hc
    exact fun db db' found h => Database.updateRecord_within h
  | getWorkflow | sendEmail | http | closeHttp => trivial

/-! ## Runs of a schedule -/

/-- The moments that may follow as long as nobody but one run touches a part of the world. -/
def Moment.GoesAlone {S : Setting} {β : Type} (i : Nat) (part : S.World → β) : Moment S → Moment S → Prop :=
  Relation.ReflTransGen fun m m' => Move m m' ∧ (m.activity.IsOf i ∨ part m'.schedule.world = part m.schedule.world)

namespace Moment.GoesAlone

variable {S : Setting} {β : Type} {i : Nat} {part : S.World → β} {m m' m'' : Moment S}

theorem goes (h : m.GoesAlone i part m') : m.Goes m' := Relation.ReflTransGen.mono (fun _ _ h => h.1) _ _ h

theorem trans (h : m.GoesAlone i part m') (h' : m'.GoesAlone i part m'') : m.GoesAlone i part m'' :=
  Relation.ReflTransGen.trans h h'

/-- What a run does is done by it alone. -/
theorem of_through (h : m.Through (·.IsOf i) m') : m.GoesAlone i part m' := by
  induction h with
  | refl => exact Relation.ReflTransGen.refl
  | tail _ hnext ih =>
    obtain ⟨hof, rfl⟩ := hnext
    exact Relation.ReflTransGen.tail ih ⟨.next _, .inl hof⟩

/-- To take a signal touches nothing. -/
theorem take (s : Schedule S) (x : Signal S) : GoesAlone i part ⟨.idle, s⟩ (s.take x) :=
  Relation.ReflTransGen.single ⟨.take s x, .inr (congrArg part (Schedule.world_take x))⟩

/-- As long as nobody but a run touches a part of the world, a relation is kept there that the run keeps in each move. -/
theorem keeps {R : β → β → Prop} [Std.Refl R] [IsTrans β R] (h : m.GoesAlone i part m')
    (hmove : ∀ m', m.Goes m' → m'.activity.IsOf i → R (part m'.schedule.world) (part m'.next.schedule.world)) :
    R (part m.schedule.world) (part m'.schedule.world) := by
  induction h with
  | refl => exact refl_of R _
  | @tail m₁ m₂ halone hnext ih =>
    refine trans_of R ih ?_
    obtain ⟨hnext, hof | hsame⟩ := hnext
    · rw [hnext.eq_next_of_isOf hof]
      exact hmove m₁ (goes halone) hof
    · rw [hsame]
      exact refl_of R _

end Moment.GoesAlone

namespace Engine

variable {w : Wiring} {g : Engine} {o : Order} {s : Schedule w.setting} {token : Option Nat} {m m' : Moment w.setting}

/-- What is done for a run in a move stays within its tenant. -/
theorem within_of_isOf (h : (launched g o s token).Goes m) (hof : m.activity.IsOf s.fibers.length) :
    m.schedule.world.database.Within o.actor.tenant m.next.schedule.world.database := by
  obtain ⟨φ, hin, hobeys⟩ := phase_obeys_of_goes (run_obeys_staying g o) h
  refine hin.keeps hof ?_
  rintro c limit next rfl
  obtain ⟨_, hallows, -⟩ := hobeys
  exact Call.keepsWithin (hallows c limit rfl)

/-- **A run stays within its tenant.** Whatever else is going on, each effect that is made for a run leaves the rows of other
tenants as they are, adds rows of its tenant only, and lets all rows keep their id and their tenant. So does the run as a whole,
as long as nobody else touches the database. -/
theorem run_stays_within (w : Wiring) (g : Engine) (o : Order) (s : Schedule w.setting) (token : Option Nat) :
    (∀ m, (launched g o s token).Goes m → m.activity.IsOf s.fibers.length →
      m.schedule.world.database.Within o.actor.tenant m.next.schedule.world.database) ∧
    (∀ m, (launched g o s token).GoesAlone s.fibers.length World.database m →
      s.world.database.Within o.actor.tenant m.schedule.world.database) := by
  exact ⟨fun m => within_of_isOf, fun m h => h.keeps fun m => within_of_isOf⟩

end Engine

/-! ## A step that names another tenant -/

namespace Supplying

/-- A stored step that adds a supplier and names another tenant as its owner. -/
def step : Value :=
  .dict [(.str "id", .str "supply"), (.str "type", .str "action"),
    (.str "config", .dict [(.str "action", .str "create_record"), (.str "parameters",
      .dict [(.str "table", .str "suppliers"), (.str "data",
        .dict [(.str "tenant_id", .str "other"), (.str "name", .str "Acme")])])])]

/-- The same step when it is read. -/
def stepRead : Step :=
  .mk "supply" (.action (.createRecord .suppliers [("tenant_id", .str "other"), ("name", .str "Acme")])) none none

/-- A workflow with this step only. -/
def stored : StoredWorkflow :=
  { id := .str "workflow", tenant := .str "tenant", name := .str "Supply", steps := .list [step], initial := .dict [] }

/-- A database with the workflow, and with a supplier of the other tenant. -/
def database : Database where
  rows := [
    ⟨.workflows, [("id", .value (.str "workflow")), ("tenant_id", .value (.str "tenant")), ("name", .value (.str "Supply")),
      ("steps", .value (.list [step])), ("variables", .value (.dict []))]⟩,
    ⟨.records .suppliers, [("id", .value (.str "supplier")), ("tenant_id", .value (.str "other")),
      ("is_deleted", .value (.bool false))]⟩]

/-- The tables and the owners of all rows. -/
def owners (db : Database) : List (String × String) :=
  db.rows.map fun row => (row.relation.title, (row.value "tenant_id").text)

/-- The stores are on the database. -/
def wiring : Wiring := { stores := .onDatabase }

/-- An order of the workflow. -/
def order : Order := ⟨"workflow", ⟨"tenant", "user"⟩, [], []⟩

/-- The beginning of the run. -/
def beginning : Moment wiring.setting := Engine.launched {} order { world := { database } } none

/-- The run when it has ended. -/
def supplied : Schedule wiring.setting := beginning.schedule.handle (.step 0 none)

theorem goesAlone_supplied : beginning.GoesAlone 0 World.database ⟨.idle, supplied⟩ :=
  (Moment.GoesAlone.take _ _).trans
    (.of_through (Moment.through_carryOut (m := beginning.schedule.take (.step 0 none)) (i := 0) rfl))

theorem body_stored (g : Engine) (e : Opened) : g.body e stored = g.runAll e .top [stepRead] := by
  have hread : Step.readAll g.loopLimit [step] = .ok [stepRead] :=
    Step.readAll_cons_of_ok (Step.read_of_bodiless rfl rfl rfl rfl rfl rfl) (Step.readAll_nil _)
  refine Engine.body_of_load (w := ⟨"workflow", "tenant", "Supply", [], [stepRead]⟩) ?_
  unfold Workflow.load
  show Step.readAll g.loopLimit [step] >>= _ = _
  rw [hread]
  rfl

/-- The database when the execution is open. -/
def databaseOpened : Database :=
  (database.createExecution (ExecutionStart.fields
    ⟨"tenant", "workflow", "user", Clock.stamp (Binary64.zero false), .dict [], .dict []⟩)).2

/-- The run when its execution is open. -/
def opened : Schedule wiring.setting :=
  let s := beginning.schedule.modifyFiber 0 fun f => { f with stage := .active }
  let s : Schedule wiring.setting := { s with world := { database := databaseOpened } }
  (s.openToken 0 none).enlist 0 "uuid-1" "workflow" "tenant"

theorem supplied_eq :
    let e : Opened := ⟨"uuid-1", order.actor, Clock.stamp (Binary64.zero false)⟩
    supplied = opened.drive 0 (order.afterOpening e [] (do
      let result ← Run.observe (({} : Engine).runAll e .top [stepRead])
      Engine.close e (.ofResult result)
      result)).run := by
  intro e
  rw [← body_stored]
  rfl

/-- The supplier is added, and belongs to the tenant of the run. -/
theorem supplied_within :
    database.Within "tenant" supplied.world.database ∧ owners supplied.world.database = [
      ("automation_workflows", "tenant"), ("suppliers", "other"), ("automation_workflow_executions", "tenant"),
      ("automation_workflow_step_runs", "tenant"), ("suppliers", "tenant")] := by
  obtain ⟨-, hwithin⟩ := Engine.run_stays_within wiring {} order { world := { database } } none
  refine ⟨hwithin ⟨.idle, supplied⟩ goesAlone_supplied, ?_⟩
  rw [supplied_eq]
  decide +kernel

end Supplying

end Runbook
