import Runbook.Proofs.Blind
import Runbook.Proofs.Sight
import Runbook.Proofs.Tenant

/-!
# Runs see one tenant only

A run makes all its calls for the tenant of its actor, and it adds records under ids that were just given out for them, or under
ids that its steps name. So what is done for it does the same with what its tenant sees of the database, if that tells of the ids
which the steps name whether they are taken. The answers matter here: a run goes on with the workflow that it has found, and with
the id that it was given.

* `Database.sight`: what a tenant sees of the world. **`Wiring.perform_blind`**: it is enough for a call of the tenant.
* `Engine.idsOf`: the ids that the steps of an ordered workflow name.
* `Attempt.SeesOnly`, `Run.SeesOnly`: parts of a run that see one tenant only.
* **`Engine.runAll_seesOnly`**, **`Engine.run_seesOnly`**: so do the steps, and the run.
-/

namespace Runbook

open Database (IsFair IsBlind)

/-! ## What is done for a call -/

/-- What a tenant sees of the world. -/
def Database.sight (tenant : String) (named : List (Table × String)) (origin : Database) : Sight World where
  see w := { w with database := w.database.seenBy tenant named }
  Sound w := IsFair tenant origin w.database

namespace Call

/-- A call that adds no row but under a known id. -/
def IsKnown (named : List (Table × String)) (origin : Database) : Call → Prop
  | insert table _ record => ∀ id ∈ record.idText?, Database.IsKnown named origin (.records table) id
  | _ => True

/-- What is known of the answer to a call. -/
def Answers (tenant : String) (named : List (Table × String)) (origin : Database) : (c : Call) → Except Failure c.Answer → Prop
  | getWorkflow _ id, r => r = origin.workflow? tenant id
  | freshId, r => ∀ id, r = .ok id → ∀ relation, Database.IsKnown named origin relation id
  | _, _ => True

end Call

section Calls

variable {tenant : String} {named : List (Table × String)} {origin : Database} {α : Type}

theorem Work.Makes.blind {w : Work World α} (h : w.Makes fun _ f => IsBlind tenant named origin (fun _ => True) f) :
    w.Blind (Database.sight tenant named origin) fun _ => True := by
  induction h with
  | done a => trivial
  | @aside e next he _ ih =>
    cases e with
    | change => cases he
    | _ => exact ih
  | change f next hf _ ih =>
    intro w hsound
    have hsame : f w = { f w with database := w.database } := (hf w w.database).1
    refine ⟨?_, ?_, (hf w _).2, ih w⟩
    · rw [hsame]
      exact hsound
    · refine (hf w _).1.trans ?_
      rw [hsame]
      rfl
  | statement f next hf _ ih =>
    intro w hsound
    obtain ⟨hfair, hseen, -⟩ := hf w.database hsound
    refine ⟨hfair, ?_, ?_, ih _⟩
    · exact congrArg (fun p => { w with database := p.2 }) hseen
    · exact congrArg (fun p => next p.1) hseen

theorem Database.IsBlind.mono {P Q : α → Prop} {f : Database → α × Database} (h : IsBlind tenant named origin P f)
    (hP : ∀ a, P a → Q a) : IsBlind tenant named origin Q f := fun db hfair => by
  obtain ⟨hfair, hseen, ha⟩ := h db hfair
  exact ⟨hfair, hseen, hP _ ha⟩

theorem Database.IsBlind.statement {P : Except Failure α → Prop} {f : Database → Except Failure α × Database}
    (h : IsBlind tenant named origin P f) : Work.Blind (Database.sight tenant named origin) P (Wiring.statement f).run := by
  intro w hsound
  obtain ⟨hfair, hseen, ha⟩ := h w.database hsound
  refine ⟨hfair, ?_, ?_, ha⟩
  · exact congrArg (fun p => { w with database := p.2 }) hseen
  · exact congrArg (fun p => Program.done p.1) hseen

theorem Database.IsBlind.transacted {f : Database → Except Failure (α × Database)}
    (h : ∀ db, IsFair tenant origin db → f (db.seenBy tenant named) = (f db).map (Prod.map id (seenBy tenant named)) ∧
      ∀ a db', f db = .ok (a, db') → IsFair tenant origin db') :
    IsBlind tenant named origin (fun _ => True) (transacted f) := by
  intro db hfair
  obtain ⟨hseen, hchanged⟩ := h db hfair
  unfold Database.transacted
  rw [hseen]
  cases hf : f db with
  | error e => exact ⟨hfair, rfl, trivial⟩
  | ok p => exact ⟨hchanged p.1 p.2 hf, rfl, trivial⟩

/-- **The statements of a call of a tenant** see this tenant only, if the call adds no row but under a known id. -/
theorem Call.makesBlind {c : Call} (hc : c.isFor tenant) (hknown : c.IsKnown named origin) :
    c.Makes fun _ f => IsBlind tenant named origin (fun _ => True) f := by
  have hself : ∀ t : String, (t == tenant) = true → t = tenant := fun _ => beq_iff_eq.mp
  have hcommand {f : Database → Except Failure Database} (hf : ∀ db, IsFair tenant origin db →
      f (db.seenBy tenant named) = (f db).map (Database.seenBy tenant named) ∧ ∀ db', f db = .ok db' → IsFair tenant origin db') :
      IsBlind tenant named origin (fun _ => True) (Database.transacted fun db => (f db).map fun db => ((), db)) := by
    refine .transacted fun db hfair => ?_
    obtain ⟨hseen, hchanged⟩ := hf db hfair
    rw [hseen]
    cases hdb : f db with
    | error e => exact ⟨rfl, nofun⟩
    | ok db' =>
      refine ⟨rfl, ?_⟩
      rintro _ _ ⟨⟩
      exact hchanged db' hdb
  cases c with
  | getWorkflow t id =>
    obtain rfl := hself _ hc
    exact Database.workflow?_blind.mono fun _ _ => trivial
  | createExecution record | createStepRun record =>
    obtain rfl := hself _ hc
    exact Database.create_blind rfl nofun
  | updateExecution t id record | updateStepRun t id record =>
    obtain rfl := hself _ hc
    exact hcommand fun db => Database.update_blind record.names.1 record.names.2 nofun
  | freshId => exact Database.freshId_blind.mono fun _ _ => trivial
  | notify recipients payload =>
    exact fun recipient hrecipient => Database.record_blind (hself _ (List.all_eq_true.mp hc recipient hrecipient))
  | insert table t record =>
    obtain rfl := hself _ hc
    exact Database.insertRecord_blind hknown
  | update table t id fields =>
    obtain rfl := hself _ hc
    exact .transacted fun db => Database.updateRecord_blind
  | sendEmail | http | closeHttp => trivial

/-- **What is done for a call of a tenant** sees this tenant only. -/
theorem Wiring.perform_blind {w : Wiring} (hw : w.stores = .onDatabase) {c : Call} (hc : c.isFor tenant)
    (hknown : c.IsKnown named origin) :
    Work.Blind (Database.sight tenant named origin) (c.Answers tenant named origin) (w.perform c).run := by
  cases c with
  | getWorkflow t id =>
    obtain rfl := beq_iff_eq.mp hc
    rw [perform, hw]
    exact Database.workflow?_blind.statement
  | freshId => exact Database.freshId_blind.statement
  | _ => exact (Work.Makes.blind (w.perform_makes (Call.makesBlind hc hknown))).mono fun _ _ => trivial

end Calls

/-! ## The ids that steps name -/

/-- The ids that the data of a record give to it in a table. -/
def Action.ids : Action → List (Table × String)
  | .createRecord table data => data.filterMap fun p => if p.1 = "id" then p.2.keptText?.map (table, ·) else none
  | _ => []

mutual

/-- The ids that a step names. -/
def Step.ids : Step → List (Table × String)
  | .mk _ task _ _ => task.ids

/-- The ids that a task of a step names. -/
def Task.ids : Task → List (Table × String)
  | .action a => a.ids
  | .loop _ _ body => Step.idsAll body
  | .condition .. | .delay _ | .webhook _ => []

/-- The ids that steps name. -/
def Step.idsAll : List Step → List (Table × String)
  | [] => []
  | s :: rest => s.ids ++ Step.idsAll rest

end

/-- The ids that the steps of a stored workflow name; a workflow that cannot be read has no steps. -/
def Engine.ids (g : Engine) (stored : StoredWorkflow) : List (Table × String) :=
  match Workflow.load g.loopLimit stored with
  | .ok w => Step.idsAll w.steps
  | .error _ => []

theorem Engine.ids_of_load {g : Engine} {stored : StoredWorkflow} {workflow : Workflow}
    (h : Workflow.load g.loopLimit stored = .ok workflow) : g.ids stored = Step.idsAll workflow.steps := by
  rw [ids, h]

theorem Fields.get?_merge {fs other : Fields} {name : String} {v : Value} (h : (fs.merge other).get? name = some v) :
    fs.get? name = some v ∨ (name, v) ∈ other := by
  induction other generalizing fs with
  | nil => exact .inl h
  | cons p other ih =>
    obtain ⟨n, w⟩ := p
    have hmerge : fs.merge ((n, w) :: other) = (fs.set n w).merge other := rfl
    rw [hmerge] at h
    obtain hset | hmem := ih h
    · by_cases hn : n = name
      · subst hn
        rw [Fields.get?_set_self] at hset
        exact .inr (Option.some.inj hset ▸ List.mem_cons_self)
      · rw [Fields.get?_set_of_ne hn] at hset
        exact .inl hset
    · exact .inr (List.mem_cons_of_mem _ hmem)

/-- The id of a new record is the one that was given out for it, or one that its data name. -/
theorem Action.idText?_newRecord {actor : Actor} {fresh id : String} {now : DateTime} {data : Fields} (table : Table)
    (h : (newRecord actor fresh now data).idText? = some id) : id = fresh ∨ (table, id) ∈ (createRecord table data).ids := by
  unfold newRecord Fields.idText? at h
  rw [Fields.get?_set_of_ne (by decide)] at h
  obtain ⟨v, hv, hkept⟩ := Option.bind_eq_some_iff.mp h
  obtain hfresh | hmem := Fields.get?_merge hv
  · cases hfresh
    cases hkept
    exact .inl rfl
  · refine .inr (List.mem_filterMap.mpr ⟨_, hmem, ?_⟩)
    rw [if_pos rfl, hkept]
    rfl

/-! ## Parts of a run -/

section Parts

variable {w : Wiring} {tenant : String} {named : List (Table × String)} {origin : Database} {α β : Type}

/-- A routine that sees one tenant only, and comes to such results. -/
def Routine.SeesOnly (w : Wiring) (tenant : String) (named : List (Table × String)) (origin : Database) (P : α → Prop)
    (p : Routine Call Call.Answer α) : Prop :=
  p.Safe (Database.sight tenant named origin) (fun c => (w.perform c).run) P

/-- So does a part of one, if it does not fail. -/
def Attempt.SeesOnly (w : Wiring) (tenant : String) (named : List (Table × String)) (origin : Database) (P : α → Prop)
    (a : Attempt Call Call.Answer α) : Prop :=
  Routine.SeesOnly w tenant named origin (fun r => ∀ x, r = .ok x → P x) a.run

/-- So does a part of a run, whatever the variables. -/
def Run.SeesOnly (w : Wiring) (tenant : String) (named : List (Table × String)) (origin : Database) (P : α → Prop)
    (m : Run α) : Prop :=
  ∀ vs, Routine.SeesOnly w tenant named origin (fun p => ∀ x, p.1 = .ok x → P x) (m.run.run vs)

variable {P : α → Prop} {Q : β → Prop}

namespace Attempt.SeesOnly

theorem pure {a : α} (ha : P a) : SeesOnly w tenant named origin P (Pure.pure a) := by
  rintro _ ⟨⟩
  exact ha

theorem bind {a : Attempt Call Call.Answer α} {f : α → Attempt Call Call.Answer β} (ha : SeesOnly w tenant named origin P a)
    (hf : ∀ x, P x → SeesOnly w tenant named origin Q (f x)) : SeesOnly w tenant named origin Q (a >>= f) := by
  refine Routine.Safe.bind ha ?_
  rintro (e | x) hx
  · exact nofun
  · exact hf x (hx x rfl)

theorem except {x : Except Failure α} :
    SeesOnly w tenant named origin (fun _ => True) (liftM x : Attempt Call Call.Answer α) := by
  cases x with
  | error f => exact nofun
  | ok a => exact pure trivial

/-- A request that is no call. -/
theorem ask {q : Request Call} (hq : ∀ c limit, q ≠ .call c limit) :
    SeesOnly w tenant named origin (fun _ => True) (Attempt.ask q : Attempt Call Call.Answer _) := by
  cases q with
  | call c limit => exact absurd rfl (hq c limit)
  | _ => exact fun _ _ _ => trivial

theorem awaitCancel {limit : Binary64} : SeesOnly w tenant named origin (fun _ => True) (Attempt.awaitCancel limit) :=
  fun _ _ _ => trivial

/-- A call of the tenant that adds no row but under a known id. -/
theorem call (hw : w.stores = .onDatabase) {c : Call} {limit : Option Binary64} (hc : c.isFor tenant)
    (hknown : c.IsKnown named origin) :
    SeesOnly w tenant named origin (fun x => c.Answers tenant named origin (.ok x)) (Attempt.call c limit) := by
  refine ⟨(Wiring.perform_blind hw hc hknown).mono ?_, fun f => nofun⟩
  rintro _ hr x rfl
  exact hr

theorem view : SeesOnly w tenant named origin (fun _ => True) (Token.view : Attempt Call Call.Answer _) := fun _ _ _ => trivial

theorem check : SeesOnly w tenant named origin (fun _ => True) (Token.check : Attempt Call Call.Answer _) :=
  .bind view fun _ _ => .except

theorem adapt {f : Failure → Failure} {a : Attempt Call Call.Answer α} (ha : SeesOnly w tenant named origin P a) :
    SeesOnly w tenant named origin P (ExceptT.adapt f a) := by
  refine Routine.Safe.bind ha ?_
  rintro (e | x) hx
  · exact nofun
  · exact hx

theorem guard (hw : w.stores = .onDatabase) {c : Call} (hc : c.isFor tenant) (hknown : c.IsKnown named origin) :
    SeesOnly w tenant named origin (fun x => c.Answers tenant named origin (.ok x)) (Token.guard c) := by
  have hbounded (limit : Option Binary64) :
      SeesOnly w tenant named origin (fun x => c.Answers tenant named origin (.ok x)) (Token.boundedCall c limit) := by
    cases limit with
    | none => exact call hw hc hknown
    | some left => exact adapt (call hw hc hknown)
  rw [Token.guard_eq]
  exact .bind view fun v _ => .bind .except fun _ _ => .bind (hbounded _) fun x hx =>
    .bind check fun _ _ => .pure hx

theorem sleep {seconds : Binary64} :
    SeesOnly w tenant named origin (fun _ => True) (Token.sleep seconds : Attempt Call Call.Answer _) := by
  unfold Token.sleep
  refine .bind view fun v _ => .bind .except fun _ _ => ?_
  extract_lets
  refine .bind awaitCancel fun cancelled _ => ?_
  extract_lets
  split
  · exact .bind .except fun _ _ => check
  · exact check

end Attempt.SeesOnly

namespace Run.SeesOnly

theorem pure {a : α} (ha : P a) : SeesOnly w tenant named origin P (Pure.pure a) := by
  rintro vs _ ⟨⟩
  exact ha

theorem bind {m : Run α} {f : α → Run β} (hm : SeesOnly w tenant named origin P m)
    (hf : ∀ x, P x → SeesOnly w tenant named origin Q (f x)) : SeesOnly w tenant named origin Q (m >>= f) := by
  intro vs
  refine Routine.Safe.bind (hm vs) ?_
  rintro ⟨e | x, vs'⟩ hx
  · exact nofun
  · exact hf x (hx x rfl) vs'

theorem mono {R : α → Prop} {m : Run α} (hm : SeesOnly w tenant named origin P m) (h : ∀ x, P x → R x) :
    SeesOnly w tenant named origin R m :=
  fun vs => Routine.Safe.mono (hm vs) fun _ hp x hx => h x (hp x hx)

theorem liftExcept {x : Except Failure α} (hx : ∀ a, x = .ok a → P a) : SeesOnly w tenant named origin P (liftM x : Run α) := by
  cases x with
  | error f => exact fun _ => nofun
  | ok a => exact pure (hx a rfl)

theorem except {x : Except Failure α} : SeesOnly w tenant named origin (fun _ => True) (liftM x : Run α) :=
  liftExcept fun _ _ => trivial

theorem attempt {a : Attempt Call Call.Answer α} (ha : Attempt.SeesOnly w tenant named origin P a) :
    SeesOnly w tenant named origin P (Run.attempt a) :=
  fun _ => Routine.Safe.bind ha fun _ hr => hr

theorem current : SeesOnly w tenant named origin (fun _ => True) Run.current := fun _ _ _ => trivial

theorem setVariable {name : String} {v : Value} : SeesOnly w tenant named origin (fun _ => True) (Run.setVariable name v) :=
  fun _ _ _ => trivial

theorem lookup {path : String} : SeesOnly w tenant named origin (fun _ => True) (Run.lookup path) :=
  .bind current fun _ _ => .except

theorem now : SeesOnly w tenant named origin (fun _ => True) Run.now :=
  .bind (attempt (.ask (q := .now) (by rintro _ _ ⟨⟩))) fun _ _ => .pure trivial

theorem check : SeesOnly w tenant named origin (fun _ => True) Run.check := attempt .check

theorem observe {m : Run α} (hm : SeesOnly w tenant named origin P m) :
    SeesOnly w tenant named origin (fun r => ∀ x, r = .ok x → P x) (Run.observe m) := by
  refine fun vs => Routine.Safe.bind (hm vs) ?_
  rintro ⟨r, vs'⟩ hr _ ⟨⟩
  exact hr

/-- A call of the tenant that adds no row but under a known id. -/
theorem call (hw : w.stores = .onDatabase) {c : Call} (hc : c.isFor tenant) (hknown : c.IsKnown named origin) :
    SeesOnly w tenant named origin (fun x => c.Answers tenant named origin (.ok x)) (Run.call c) :=
  attempt (.call hw hc hknown)

theorem guarded (hw : w.stores = .onDatabase) {c : Call} (hc : c.isFor tenant) (hknown : c.IsKnown named origin) :
    SeesOnly w tenant named origin (fun _ => True) (Run.guarded c) :=
  (attempt (.guard hw hc hknown)).mono fun _ _ => trivial

end Run.SeesOnly

/-! ## Steps -/

/-- **An action** sees the tenant of its actor only, if the ids that it names are known. -/
theorem Action.perform_seesOnly (hw : w.stores = .onDatabase) {a : Action} (ha : a.ids ⊆ named) (registry : Registry)
    (sender : String) (actor : Actor) :
    Run.SeesOnly w actor.tenant named origin (fun _ => True) (a.perform registry sender actor) := by
  have hself : (actor.tenant == actor.tenant) = true := beq_self_eq_true _
  cases a with
  | sendEmail => exact .guarded (c := .sendEmail _) hw rfl trivial
  | createRecord table data =>
    refine .bind .except fun _ _ =>
      .bind (.call (c := .freshId) hw rfl trivial) fun fresh hfresh => .bind .now fun now _ =>
        .guarded (c := .insert table actor.tenant _) hw hself ?_
    intro id hid
    obtain rfl | hmem := Action.idText?_newRecord table hid
    · exact hfresh id rfl _
    · exact .inr ⟨_, ha hmem, rfl, rfl⟩
  | updateRecord table record data =>
    exact .bind .except fun _ _ => .bind .now fun _ _ =>
      .bind (.guarded (c := .update table actor.tenant _ _) hw hself trivial) fun _ _ => .pure trivial
  | sendNotification addressees =>
    refine .guarded (c := .notify _ _) hw (List.all_eq_true.mpr fun recipient hrecipient => ?_) trivial
    obtain ⟨a, -, rfl⟩ := List.mem_map.mp hrecipient
    exact hself

theorem Webhook.run_seesOnly (hw : w.stores = .onDatabase) (options : WebhookOptions) (h : Webhook) :
    Run.SeesOnly w tenant named origin (fun _ => True) (h.run options) := by
  unfold Webhook.run
  extract_lets rest
  have hrest (u : Unit) : Run.SeesOnly w tenant named origin (fun _ => True) (rest u) :=
    .bind .except fun _ _ => .bind (.attempt .view) fun _ _ =>
      .bind (.observe (.guarded (c := .http _) hw rfl trivial)) fun _ _ =>
        .bind (.call (c := .closeHttp) hw rfl trivial) fun _ _ =>
          .bind .except fun _ _ => .except
  split
  · exact .bind .except fun u _ => hrest u
  · exact hrest ()

namespace Engine

variable {g : Engine} {e : Opened}

theorem record_seesOnly (hw : w.stores = .onDatabase) {path : StepPath} {kind : StepKind} {body : Run Unit}
    (hbody : Run.SeesOnly w e.actor.tenant named origin (fun _ => True) body) :
    Run.SeesOnly w e.actor.tenant named origin (fun _ => True) (record e path kind body) := by
  have hself : (e.actor.tenant == e.actor.tenant) = true := beq_self_eq_true _
  exact .bind .now fun _ _ => .bind (.call hw hself trivial) fun _ _ => .bind (.observe hbody) fun _ _ => .bind .now fun _ _ =>
    .bind (.call hw hself trivial) fun _ _ => .except

theorem passes_seesOnly {body : Nat → Run Unit} (hbody : ∀ i, Run.SeesOnly w tenant named origin (fun _ => True) (body i))
    (xs : List Value) (i : Nat) : Run.SeesOnly w tenant named origin (fun _ => True) (passes body i xs) := by
  induction xs generalizing i with
  | nil => exact .pure trivial
  | cons x xs ih =>
    exact .bind .setVariable fun _ _ => .bind .setVariable fun _ _ => .bind (hbody i) fun _ _ => ih (i + 1)

mutual

theorem execute_seesOnly (hw : w.stores = .onDatabase) (path : StepPath) :
    (task : Task) → task.ids ⊆ named → Run.SeesOnly w e.actor.tenant named origin (fun _ => True) (execute g e path task)
  | .condition at_ operator expected, _ => by
    rw [execute]
    exact .bind .lookup fun _ _ => .bind .except fun _ _ => .setVariable
  | .action a, ha => by
    rw [execute]
    exact .bind .except fun _ _ => a.perform_seesOnly hw ha _ _ _
  | .loop collection maxIterations body, hbody => by
    rw [execute]
    exact .bind .lookup fun _ _ => .bind .except fun _ _ =>
      passes_seesOnly (fun _ => runAll_seesOnly hw _ body hbody) _ _
  | .delay milliseconds, _ => by
    rw [execute]
    exact .attempt .sleep
  | .webhook h, _ => by
    rw [execute]
    exact .bind (h.run_seesOnly hw g.webhook) fun _ _ => .setVariable

theorem runStep_seesOnly (hw : w.stores = .onDatabase) (place : String → StepPath) :
    (step : Step) → step.ids ⊆ named → Run.SeesOnly w e.actor.tenant named origin (fun _ => True) (runStep g e place step)
  | .mk id task _ _, htask => by
    rw [runStep]
    exact record_seesOnly hw (.bind .except fun _ _ =>
      execute_seesOnly hw (place id) task htask)

/-- **Steps** see the tenant of their execution only, if the ids that they name are known. -/
theorem runAll_seesOnly (hw : w.stores = .onDatabase) (place : String → StepPath) :
    (steps : List Step) → Step.idsAll steps ⊆ named →
      Run.SeesOnly w e.actor.tenant named origin (fun _ => True) (runAll g e place steps)
  | [], _ => by
    rw [runAll]
    exact .pure trivial
  | step :: rest, hsteps => by
    obtain ⟨hstep, hrest⟩ := List.append_subset.mp hsteps
    rw [runAll]
    exact .bind .check fun _ _ => .bind (runStep_seesOnly hw place step hstep) fun _ _ => runAll_seesOnly hw place rest hrest

end

/-! ## Runs -/

variable {o : Order}

/-- The ids that the steps of a workflow in the database name, if there is one. -/
def idsOf (g : Engine) (db : Database) (o : Order) : List (Table × String) :=
  match db.workflow? o.actor.tenant o.workflow with
  | .ok (some stored) => g.ids stored
  | _ => []

theorem idsOf_of_workflow? {db : Database} {stored : StoredWorkflow}
    (h : db.workflow? o.actor.tenant o.workflow = .ok (some stored)) : g.idsOf db o = g.ids stored := by
  rw [idsOf, h]

theorem body_seesOnly (hw : w.stores = .onDatabase) {stored : StoredWorkflow} (h : g.ids stored ⊆ named) :
    Run.SeesOnly w e.actor.tenant named origin (fun _ => True) (g.body e stored) := by
  unfold body
  cases hload : Workflow.load g.loopLimit stored with
  | error f => exact .bind (P := fun _ => False) (.liftExcept nofun) fun _ h => h.elim
  | ok workflow => exact runAll_seesOnly hw _ _ (ids_of_load hload ▸ h)

theorem close_seesOnly (hw : w.stores = .onDatabase) (outcome : Outcome) :
    Run.SeesOnly w e.actor.tenant named origin (fun _ => True) (close e outcome) :=
  .bind .now fun _ _ => .bind .current fun _ _ => .bind .except fun _ _ =>
    (Run.SeesOnly.call (c := .updateExecution e.actor.tenant _ _) hw (beq_self_eq_true _) trivial).mono fun _ _ => trivial

theorem conduct_seesOnly (hw : w.stores = .onDatabase) {stored : StoredWorkflow} (h : g.ids stored ⊆ named) :
    Run.SeesOnly w e.actor.tenant named origin (fun _ => True) (g.conduct e stored) :=
  .bind (.observe (body_seesOnly hw h)) fun _ _ => .bind (close_seesOnly hw _) fun _ _ => .except

/-- The workflow that a run finds is the one that was there. -/
theorem find_seesOnly (g : Engine) (hw : w.stores = .onDatabase) :
    Attempt.SeesOnly w o.actor.tenant named origin (fun stored => g.ids stored = g.idsOf origin o) (find o) := by
  refine .bind (.call (c := .getWorkflow _ _) hw (beq_self_eq_true _) trivial) fun stored? hstored => ?_
  cases stored? with
  | none => exact nofun
  | some stored =>
    have hfound : .ok (some stored) = origin.workflow? o.actor.tenant o.workflow := hstored
    exact .pure (idsOf_of_workflow? hfound.symm).symm

theorem openExecution_seesOnly (hw : w.stores = .onDatabase) (vs : Variables) :
    Attempt.SeesOnly w o.actor.tenant named origin (fun e => e.actor = o.actor) (g.openExecution o vs) :=
  .bind (.ask (q := .now) (by rintro _ _ ⟨⟩)) fun _ _ => .bind .except fun _ _ => .bind .except fun _ _ =>
    .bind (.call (c := .createExecution _) hw (beq_self_eq_true _) trivial) fun _ _ =>
    .bind (.ask (q := .openToken _) (by rintro _ _ ⟨⟩)) fun _ _ =>
    .bind (.ask (q := .enlist _ _ _) (by rintro _ _ ⟨⟩)) fun _ _ => .pure rfl

/-- **A run** sees the tenant of its actor only, if the ids that its steps name are known. -/
theorem run_seesOnly (hw : w.stores = .onDatabase) (h : g.idsOf origin o ⊆ named) :
    Attempt.SeesOnly w o.actor.tenant named origin (fun _ => True) (g.run o) := by
  refine .bind (find_seesOnly g hw) fun stored hstored => .bind .except fun vs _ =>
    .bind (openExecution_seesOnly hw vs) fun e he => ?_
  have hconduct : Run.SeesOnly w o.actor.tenant named origin (fun _ => True) (g.conduct e stored) :=
    he ▸ conduct_seesOnly hw (hstored ▸ h)
  have hlift : Attempt.SeesOnly w o.actor.tenant named origin (fun _ => True) (ExceptT.lift ((g.conduct e stored).run.run vs)) :=
    Routine.Safe.bind (hconduct vs) fun _ _ _ _ => trivial
  exact .bind hlift fun ⟨result, final⟩ _ => .bind (.ask (q := .delist _) (by rintro _ _ ⟨⟩)) fun _ _ =>
    .bind .except fun _ _ => .pure trivial

end Engine

end Parts

end Runbook
