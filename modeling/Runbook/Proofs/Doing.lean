import Runbook.Proofs.Phase
import Runbook.Proofs.Result
import Runbook.Rehearsal

/-!
# What is done for a call

What is done for a call is work of many effects, and it touches the database only where it makes a statement. So whatever holds
of the statements of a call holds of the call: if they keep a relation between the database before and after, each of the effects
does.

* `Call.Makes`: the statements that a call may make.
* `Work.Makes`, `Job.Makes`: work and jobs that touch the database by such statements only.
* **`Wiring.perform_makes`**: whatever is done for a call.
* `Call.Keeps`, **`Wiring.perform_keeps`**: statements that change the database by a relation only.
* **`Moment.In.keeps`**: what a run does to the database.
-/

namespace Runbook

/-- A statement that changes the database unless it fails. -/
def Database.transacted {α : Type} (f : Database → Except Failure (α × Database)) (db : Database) : Except Failure α × Database :=
  match f db with
  | .ok (a, db) => (.ok a, db)
  | .error e => (.error e, db)

/-- An effect that is none on the world. -/
def Effect.isAside : Effect World → Bool
  | .change _ => false
  | _ => true

/-- Work that touches the database by statements of this kind only. -/
inductive Work.Makes (Q : (β : Type) → (Database → β × Database) → Prop) {α : Type} : Work World α → Prop where
  | done (a : α) : Makes Q (.done a)
  | aside {e : Effect World} {next : e.Reply → Work World α} : e.isAside → (∀ r, Makes Q (next r)) → Makes Q (.ask e next)
  /-- What is done to the rest of the world has nothing to do with the database. -/
  | change (f : World → World) (next : World → Work World α) :
    (∀ w db, f { w with database := db } = { f w with database := db } ∧ next { w with database := db } = next w) →
      (∀ w, Makes Q (next w)) → Makes Q (.ask (.change f) next)
  | statement {β : Type} (f : Database → β × Database) (next : β → Work World α) : Q β f → (∀ b, Makes Q (next b)) →
    Makes Q (.ask (.change fun w => { w with database := (f w.database).2 }) fun (w : World) => next (f w.database).1)

/-- A job that touches the database by such statements only. -/
def Job.Makes {α : Type} (Q : (β : Type) → (Database → β × Database) → Prop) (job : Job World α) : Prop := Work.Makes Q job.run

/-- The statements that may be made for a call. -/
def Call.Makes (Q : (β : Type) → (Database → β × Database) → Prop) : Call → Prop
  | getWorkflow tenant id => Q _ fun db => (db.workflow? tenant id, db)
  | createExecution record => Q _ fun db => db.createExecution record.fields
  | updateExecution tenant id record =>
    Q _ (Database.transacted fun db => (db.updateExecution tenant id record.fields).map fun db => ((), db))
  | createStepRun record => Q _ fun db => db.createStepRun record.fields
  | updateStepRun tenant id record =>
    Q _ (Database.transacted fun db => (db.updateStepRun tenant id record.fields).map fun db => ((), db))
  | freshId => Q (Except Failure String) fun db => (.ok db.freshId.1, db.freshId.2)
  | notify recipients payload => ∀ recipient ∈ recipients, Q _ fun db => db.record recipient payload
  | insert table tenant record => Q _ fun db => db.insertRecord table tenant record
  | update table tenant id fields => Q _ (Database.transacted fun db => db.updateRecord table tenant id fields)
  | sendEmail _ | http _ | closeHttp => True

section Makes

variable {Q : (β : Type) → (Database → β × Database) → Prop} {α β : Type}

namespace Work.Makes

theorem bind {w : Work World α} {f : α → Work World β} (hw : w.Makes Q) (hf : ∀ a, (f a).Makes Q) : Makes Q (w >>= f) := by
  induction hw with
  | done a => exact hf a
  | aside he _ ih => exact .aside he ih
  | change g next hg _ ih => exact .change g _ (fun w db => ⟨(hg w db).1, congrArg (· >>= f) (hg w db).2⟩) ih
  | statement g next hg _ ih => exact .statement g (fun b => next b >>= f) hg ih

theorem effect {e : Effect World} (he : e.isAside) : Makes Q (Work.effect e) := .aside he .done

/-- A change of the rest of the world, with an answer about it. -/
theorem update {f : World → α × World}
    (hf : ∀ w db, f { w with database := db } = ((f w).1, { (f w).2 with database := db })) : Makes Q (Work.update f) := by
  have hanswer (w : World) (db : Database) : (f { w with database := db }).1 = (f w).1 := by rw [hf]
  exact .change _ _ (fun w db => ⟨congrArg Prod.snd (hf w db), congrArg Program.done (hanswer w db)⟩) fun _ => .done _

/-- A look at the rest of the world. -/
theorem look {f : World → Work World α} (hf : ∀ w db, f { w with database := db } = f w) (h : ∀ w, (f w).Makes Q) :
    Makes Q (Work.world >>= f) :=
  .change id f (fun w db => ⟨rfl, hf w db⟩) h

end Work.Makes

namespace Job.Makes

theorem pure {a : α} : Makes Q (Pure.pure a) := .done _

theorem fail {f : Failure} : Makes Q (throw f : Job World α) := .done _

theorem bind {job : Job World α} {f : α → Job World β} (hjob : job.Makes Q) (hf : ∀ a, (f a).Makes Q) :
    Makes Q (job >>= f) := by
  refine Work.Makes.bind hjob ?_
  rintro (e | a)
  · exact .done _
  · exact hf a

theorem lift {w : Work World α} (hw : w.Makes Q) : Makes Q (Job.lift w) := Work.Makes.bind hw fun _ => .done _

end Job.Makes

namespace World

theorem log_makes (o : Occurrence) : (log o).Makes Q :=
  .bind (.effect (e := .clock) rfl) fun _ => .change _ _ (fun _ _ => ⟨rfl, rfl⟩) fun _ => .done _

theorem act_makes (a : Act) : (act a).Makes Q := by
  cases a with
  | cancel execution? reason? =>
    refine .look (fun _ _ => rfl) fun w => ?_
    dsimp only
    split
    · exact .bind (.effect (e := .cancel _ _) rfl) fun _ => log_makes _
    · exact log_makes _
  | list => exact .bind (.effect (e := .running) rfl) fun _ => log_makes _
  | interrupt message? => exact .bind (log_makes _) fun _ => .effect (e := .interrupt _) rfl

theorem actAll_makes (as : List Act) : (actAll as).Makes Q := by
  induction as with
  | nil => exact .done _
  | cons a rest ih => exact .bind (act_makes a) fun _ => ih

theorem outcome_makes (cue : Cue) : Job.Makes Q (match cue.failure with
    | some f => throw f
    | none => return cue) := by
  cases cue.failure with
  | some f => exact .fail
  | none => exact .pure

/-- What a script has in store does not touch the database. -/
theorem play_makes (p : Peer) : (play p).Makes Q := by
  refine .bind (.lift (.update fun _ _ => rfl)) fun cue => .bind (.lift (actAll_makes _)) fun _ => ?_
  dsimp only
  split
  · exact .bind (.lift (.effect (e := .pause _) rfl)) fun _ => outcome_makes cue
  · exact outcome_makes cue

theorem answer_makes (p : Peer) (o : Occurrence) : (answer p o).Makes Q :=
  .bind (.lift (log_makes o)) fun _ => play_makes p

end World

namespace Wiring

open World

variable (w : Wiring)

theorem sendEmail_makes (m : Email) : (w.sendEmail m).Makes Q := by
  unfold sendEmail
  split
  · exact .bind (answer_makes _ _) fun _ => .pure
  · exact Work.Makes.update fun _ _ => rfl

variable {recipient : Recipient} {recipients : List Recipient} {payload : Payload}

theorem record_makes (h : Q _ fun db => db.record recipient payload) : (w.record recipient payload).Makes Q := by
  unfold record
  split
  · exact .bind (answer_makes _ _) fun _ => .pure
  · exact .statement _ (fun result => .done (result.map fun _ => ())) h fun _ => .done _

theorem deliver_makes (recipient : Recipient) (payload : Payload) (channel : Channel) :
    (w.dispatcher.deliver recipient payload channel).Makes Q := by
  unfold Dispatcher.deliver
  have hpublish : ∀ publish ∈ w.dispatcher.publisher, (publish recipient payload).Makes Q := by
    intro publish h
    unfold dispatcher at h
    dsimp only at h
    split at h <;> cases h
    exact .bind (answer_makes _ _) fun _ => .pure
  have hsend : ∀ send ∈ w.dispatcher.transport, ∀ m, (send m).Makes Q := by
    intro send h m
    unfold dispatcher at h
    dsimp only at h
    split at h <;> cases h
    exact w.sendEmail_makes m
  have hresolve : ∀ addressOf ∈ w.dispatcher.addresses, (addressOf recipient).Makes Q := by
    intro addressOf h
    obtain ⟨addresses, -, rfl⟩ := Option.map_eq_some_iff.mp h
    exact .bind (answer_makes _ _) fun _ => .pure
  split
  · next h => exact hpublish _ h
  · next h h' =>
    refine .bind (hresolve _ h') fun address? => ?_
    split
    · split
      · exact .pure
      · exact hsend _ h _
    · exact .pure
  · exact .pure

theorem deliverAll_makes (recipient : Recipient) (payload : Payload) (channels : List Channel) :
    (w.dispatcher.deliverAll recipient payload channels).Makes Q := by
  induction channels with
  | nil => exact .pure
  | cons channel rest ih => exact .bind (w.deliver_makes recipient payload channel) fun _ => ih

theorem notifyOne_makes (h : Q _ fun db => db.record recipient payload) : (w.dispatcher.notify recipient payload).Makes Q := by
  unfold Dispatcher.notify
  dsimp only
  split
  · next record hrecord =>
    unfold dispatcher at hrecord
    dsimp only at hrecord
    split at hrecord <;> cases hrecord
    exact .bind (w.record_makes h) fun _ => w.deliverAll_makes recipient payload _
  · exact .bind .pure fun _ => w.deliverAll_makes recipient payload _

/-- The dispatcher of notifications puts them into the inboxes of their recipients, and does nothing else to the database. -/
theorem dispatch_makes (h : ∀ recipient ∈ recipients, Q _ fun db => db.record recipient payload) :
    (w.dispatcher.dispatch recipients payload).Makes Q := by
  induction recipients with
  | nil => exact .pure
  | cons recipient rest ih =>
    obtain ⟨hfirst, hrest⟩ := List.forall_mem_cons.mp h
    exact .bind (w.notifyOne_makes hfirst) fun _ => ih hrest

theorem notify_makes (h : ∀ recipient ∈ recipients, Q _ fun db => db.record recipient payload) :
    (w.notify recipients payload).Makes Q := by
  unfold notify
  split
  · exact .bind (answer_makes _ _) fun _ => .pure
  · exact w.dispatch_makes h

theorem statement_makes {f : Database → Except Failure α × Database} (hf : Q _ f) : (statement f).Makes Q :=
  .statement f .done hf .done

theorem noted_makes (p : Peer) (c : Call) : (noted p c).Makes Q := .bind (answer_makes _ _) fun _ => .pure

/-- **What is done for a call** touches the database by the statements of the call only. -/
theorem perform_makes {c : Call} (hc : c.Makes Q) : (w.perform c).Makes Q := by
  cases c with
  | getWorkflow tenant id =>
    unfold perform
    split
    · exact .bind (play_makes _) fun _ => Work.Makes.look (fun _ _ => rfl) fun _ => .done _
    · exact statement_makes hc
  | createExecution record | createStepRun record =>
    unfold perform
    split
    · exact .bind (.lift (.update fun _ _ => rfl)) fun _ => .bind (answer_makes _ _) fun _ => .pure
    · exact statement_makes hc
  | updateExecution tenant id record | updateStepRun tenant id record =>
    unfold perform
    split
    · exact noted_makes _ _
    · exact statement_makes hc
  | freshId => exact statement_makes hc
  | sendEmail m => exact w.sendEmail_makes m
  | notify recipients payload => exact w.notify_makes hc
  | insert table tenant record =>
    unfold perform
    split
    · exact noted_makes _ _
    · exact statement_makes hc
  | update table tenant id fields =>
    unfold perform
    split
    · exact .bind (noted_makes _ _) fun _ => Work.Makes.look (fun _ _ => rfl) fun _ => .done _
    · exact statement_makes hc
  | http request => exact .bind (answer_makes _ _) fun _ => .pure
  | closeHttp => exact .lift (log_makes _)

end Wiring

end Makes

/-! ## Relations that statements keep -/

variable {R : Database → Database → Prop}

/-- An effect that changes the database by a relation only, if it changes it. -/
def Effect.Keeps (R : Database → Database → Prop) : Effect World → Prop
  | .change f => ∀ w : World, R w.database (f w).database
  | _ => True

/-- Work whose effects all change the database by a relation only. -/
def Work.Keeps {α : Type} (R : Database → Database → Prop) (w : Work World α) : Prop :=
  Program.All (Effect.Keeps R) (fun _ => True) w

/-- A job whose effects all change the database by a relation only. -/
def Job.Keeps {α : Type} (R : Database → Database → Prop) (job : Job World α) : Prop := Work.Keeps R job.run

/-- The statements that a call makes change the database by a relation only. -/
def Call.Keeps (R : Database → Database → Prop) : Call → Prop
  | createExecution record => ∀ db : Database, R db (db.createExecution record.fields).2
  | updateExecution tenant id record =>
    ∀ db db' : Database, db.updateExecution tenant id record.fields = .ok db' → R db db'
  | createStepRun record => ∀ db : Database, R db (db.createStepRun record.fields).2
  | updateStepRun tenant id record => ∀ db db' : Database, db.updateStepRun tenant id record.fields = .ok db' → R db db'
  | freshId => ∀ db : Database, R db db.freshId.2
  | notify recipients payload => ∀ recipient ∈ recipients, ∀ db : Database, R db (db.record recipient payload).2
  | insert table tenant record => ∀ db : Database, R db (db.insertRecord table tenant record).2
  | update table tenant id fields =>
    ∀ (db db' : Database) (found : Bool), db.updateRecord table tenant id fields = .ok (found, db') → R db db'
  | getWorkflow .. | sendEmail _ | http _ | closeHttp => True

variable [Std.Refl R] {α : Type}

/-- Work keeps the relation that its statements keep. -/
theorem Work.Makes.keeps {w : Work World α} (hw : w.Makes fun _ f => ∀ db, R db (f db).2) : w.Keeps R := by
  induction hw with
  | done a => trivial
  | @aside e next he _ ih =>
    refine ⟨?_, ih⟩
    cases e with
    | change => cases he
    | _ => trivial
  | change f next hf _ ih =>
    refine ⟨fun w => ?_, ih⟩
    have hsame : f w = { f w with database := w.database } := (hf w w.database).1
    rw [hsame]
    exact refl_of R w.database
  | statement f next hf _ ih => exact ⟨fun w => hf w.database, fun w => ih (f w.database).1⟩

theorem Database.transacted_keeps {f : Database → Except Failure (α × Database)}
    (hf : ∀ (db db' : Database) (a : α), f db = .ok (a, db') → R db db') (db : Database) : R db (transacted f db).2 := by
  unfold transacted
  cases h : f db with
  | error e => exact refl_of R db
  | ok p => exact hf db p.2 p.1 h

theorem Call.Keeps.makes {c : Call} (hc : c.Keeps R) : c.Makes fun _ f => ∀ db, R db (f db).2 := by
  cases c with
  | getWorkflow tenant id => exact fun db => refl_of R db
  | updateExecution tenant id record | updateStepRun tenant id record =>
    refine Database.transacted_keeps fun db db' u h => ?_
    obtain ⟨db₁, h₁, h⟩ := map_eq_ok h
    cases h
    exact hc db db' h₁
  | update table tenant id fields => exact Database.transacted_keeps fun db db' found => hc db db' found
  | _ => exact hc

/-- **What is done for a call** changes the database by what the statements of the call do. -/
theorem Wiring.perform_keeps (w : Wiring) {c : Call} (hc : c.Keeps R) : (w.perform c).Keeps R :=
  Work.Makes.keeps (w.perform_makes hc.makes)

/-- **What a run does** changes the database by what the statements do of the call that it waits for. -/
theorem Moment.In.keeps {w : Wiring} {i : Nat} {m : Moment w.setting} {φ : Phase w.setting} (hin : m.In i φ)
    (hof : m.activity.IsOf i) (hφ : ∀ c limit next, φ = .waiting (.call c limit) next → c.Keeps R) :
    R m.schedule.world.database m.next.schedule.world.database := by
  obtain hsame | ⟨f, heffect, hchange⟩ := m.world_next
  · rw [hsame]
    exact refl_of R _
  obtain ⟨q, next, rfl, hcauses⟩ := hin.causes hof heffect
  cases q with
  | call c limit =>
    have hkeeps : Effect.Keeps R (.change f) := Program.All.of_asks (w.perform_keeps (hφ c limit next rfl)) hcauses
    rw [hchange]
    exact hkeeps _
  | _ => cases hcauses

end Runbook
