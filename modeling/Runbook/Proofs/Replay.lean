import Runbook.Proofs.Account
import Runbook.Proofs.Cancel

/-!
# The audit of a run

At every moment of a run the rows that it has opened in the audit are what its entries leave behind, and all other rows are as
they were. At the end of a run whose records were all made, each step run is closed, and so is the execution, unless the
variables have no recorded form.

* `Engine.Filed`: the rows at the end of a run. **`Engine.Journey.filed`**: what entries of a run leave behind is such.
* `Moment.GoesApart`: the moments of a run whose records nobody else touches.
* **`Engine.audit_is_replayed`**: the rows of the audit at all moments of a run.
-/

namespace Runbook

/-! ## The rows of executions -/

/-- The table of the record that an entry opens. -/
def Entry.openedIn? : Entry → Option Relation
  | opens r .. => some r
  | changes .. => none

/-- An entry that neither opens nor changes an execution. -/
def Entry.IsOfStepRun : Entry → Prop
  | opens r .. | changes r .. => r = .stepRuns

namespace Ledger

variable {others rows : List Row} {es : List Entry}

/-- The rows are in the order in which they were opened. -/
theorem relations (h : Ledger others es rows) : rows.map (·.relation) = es.filterMap Entry.openedIn? := by
  induction h with
  | empty => rfl
  | opens _ _ ih =>
    rw [List.map_append, List.filterMap_append, ih]
    rfl
  | changes _ _ _ _ ih =>
    rw [List.map_map, List.filterMap_append, ← ih]
    refine (List.map_congr_left fun row _ => Row.relation_changed).trans (List.append_nil _).symm

/-- The row of an execution is as it was opened, as long as it is not changed. -/
theorem row_of_execution (h : Ledger others es rows) (hes : ∀ tenant id fields, .changes .executions tenant id fields ∉ es) :
    ∀ row ∈ rows, row.relation = .executions →
      ∃ id fields, .opens .executions id fields ∈ es ∧ row = Relation.executions.row (("id", .str id) :: fields) := by
  induction h with
  | empty => exact List.forall_mem_nil _
  | @opens es rows r id fields _ _ ih =>
    refine List.forall_mem_append.mpr ⟨fun row hrow hrelation => ?_, fun row hrow hrelation => ?_⟩
    · obtain ⟨id', fields', hmem, heq⟩ :=
        ih (fun tenant id fields hmem => hes tenant id fields (List.mem_append_left _ hmem)) row hrow hrelation
      exact ⟨id', fields', List.mem_append_left _ hmem, heq⟩
    · obtain rfl := List.mem_singleton.mp hrow
      obtain rfl : r = .executions := hrelation
      exact ⟨id, fields, List.mem_append_right _ List.mem_cons_self, rfl⟩
  | @changes es rows found r tenant id fields _ _ _ _ ih =>
    intro row' hrow' hrelation
    obtain ⟨row, hrow, rfl⟩ := List.mem_map.mp hrow'
    rw [Row.relation_changed] at hrelation
    have hother : row.isNamed r id = false := by
      refine Bool.eq_false_iff.mpr fun hnamed => ?_
      obtain rfl := (Row.relation_of_isNamed hnamed).symm.trans hrelation
      exact hes tenant id fields (List.mem_append_right _ List.mem_cons_self)
    rw [Row.changed_of_not_isNamed hother]
    obtain ⟨id', fields', hmem, heq⟩ :=
      ih (fun tenant id fields hmem => hes tenant id fields (List.mem_append_left _ hmem)) row hrow hrelation
    exact ⟨id', fields', List.mem_append_left _ hmem, heq⟩

/-- After the entries of step runs the first row is that of the execution, as it was opened. -/
theorem first_row {id : String} {fields : Fields} (h : Ledger others (.opens .executions id fields :: es) rows)
    (hes : ∀ x ∈ es, x.IsOfStepRun) :
    ∃ steps, rows = Relation.executions.row (("id", .str id) :: fields) :: steps ∧
      ∀ step ∈ steps, step.relation = .stepRuns := by
  have hrelations := h.relations
  have hunchanged : ∀ tenant id' fields', Entry.changes .executions tenant id' fields' ∉ .opens .executions id fields :: es := by
    intro tenant id' fields' hmem
    rcases List.mem_cons.mp hmem with hmem | hmem
    · cases hmem
    · cases hes _ hmem
  cases rows with
  | nil => cases hrelations
  | cons row steps =>
    obtain ⟨hrow, hsteps⟩ := List.cons.inj hrelations
    obtain ⟨id', fields', hmem, rfl⟩ := h.row_of_execution hunchanged row List.mem_cons_self hrow
    rcases List.mem_cons.mp hmem with hmem | hmem
    · cases hmem
      refine ⟨steps, rfl, fun step hstep => ?_⟩
      have htable : step.relation ∈ es.filterMap Entry.openedIn? := hsteps ▸ List.mem_map_of_mem hstep
      obtain ⟨x, hx, hopened⟩ := List.mem_filterMap.mp htable
      have hof := hes x hx
      cases x <;> cases hopened
      exact hof
    · cases hes _ hmem

end Ledger

namespace Engine

variable {g : Engine} {o : Order} {e : Opened} {vs vs' : Variables} {t t' : Course} {r : Except Failure Unit}
  {others rows : List Row}

/-- The rows that a run leaves behind at its end: none, or that of its execution and those of its step runs. The step runs are
all closed, and the execution is if its variables have a recorded form. -/
inductive Filed (g : Engine) (o : Order) (t : Course) : List Row → Prop where
  | nothing : (∀ m ∈ t.calls, m.isVain) → Filed g o t []
  | records {stored : StoredWorkflow} {vs final : Variables} {n : Binary64} {start : ExecutionStart} {id : String}
      {inner closing : Course} {r : Except Failure Unit} {row : Row} {steps : List Row} :
    startVariables stored o = .ok vs → (g.body ⟨id, o.actor, Clock.stamp n⟩ stored).Leads vs inner r final →
      t = g.opening o stored n start id ++ (inner ++ closing) ++ [⟨.delist id, ()⟩] →
      row.isNamed .executions id → (row.IsTerminal ↔ ∃ v, final.recorded = .ok v) →
      (∀ step ∈ steps, step.relation = .stepRuns ∧ step.IsTerminal) → Filed g o t (row :: steps)

/-- The entries of the steps are those of step runs. -/
theorem body_entries {stored : StoredWorkflow} (h : (g.body e stored).Leads vs t r vs') : ∀ x ∈ t.entries, x.IsOfStepRun := by
  intro x hx
  obtain ⟨⟨c, a⟩, hm, hentry⟩ := List.mem_filterMap.mp hx
  have hc := body_calls h _ hm
  cases c with
  | createStepRun | updateStepRun =>
    cases a <;> cases hentry
    rfl
  | createExecution | updateExecution => exact hc.elim nofun nofun
  | _ => cases hentry

theorem entries_opened {stored : StoredWorkflow} {n : Binary64} {start : ExecutionStart} {id : String} :
    Course.entries (g.opening o stored n start id ++ (t ++ t') ++ [⟨.delist id, ()⟩]) =
      .opens .executions id start.fields :: (t.entries ++ t'.entries) := by
  rw [Course.entries_append, Course.entries_append, Course.entries_append]
  exact List.append_nil _

/-- The row of an execution that has just been opened. -/
theorem isNamed_started {start : ExecutionStart} {id : String} :
    (Relation.executions.row (("id", .str id) :: start.fields)).isNamed .executions id := by
  rw [Row.isNamed_row]
  exact Bool.and_eq_true_iff.mpr ⟨rfl, beq_self_eq_true id⟩

/-- An execution that has just been opened is running. -/
theorem not_isTerminal_started {start : ExecutionStart} {id : String} :
    ¬ (Relation.executions.row (("id", .str id) :: start.fields)).IsTerminal := by
  intro h
  have hrunning : Fields.get? (("id", .str id) :: start.fields) "status" = some (.str runningStatus) := rfl
  have hcolumn : (Relation.executions.column? "status").isSome := by decide
  have hstatus := Relation.value_row hcolumn hrunning
  rcases h.status with h | h
  · exact absurd (Value.str.inj (hstatus.symm.trans h)) (by decide)
  · exact absurd (Value.str.inj (hstatus.symm.trans h)) (by decide)

/-- The first row is that of the execution. It is running until it is changed, and then it is closed. -/
theorem execution_row {start : ExecutionStart} {es : List Entry} {final : Variables} {result : Except Failure Unit}
    (hes : ∀ x ∈ es, x.IsOfStepRun) (hclosing : Closing e r final t result) (ht : t.IsRecorded)
    (hledger : Ledger others (.opens .executions e.id start.fields :: (es ++ t.entries)) rows) :
    ∃ row steps, rows = row :: steps ∧ row.isNamed .executions e.id ∧ (row.IsTerminal ↔ ∃ v, final.recorded = .ok v) ∧
      ∀ step ∈ steps, step.relation = .stepRuns := by
  cases hclosing with
  | @unrecorded n f hfinal =>
    obtain ⟨steps, rfl, hsteps⟩ := (show Ledger others (_ :: (es ++ [])) rows from hledger).first_row (by rwa [List.append_nil])
    refine ⟨_, steps, rfl, isNamed_started, iff_of_false not_isTerminal_started ?_, hsteps⟩
    rintro ⟨v, hv⟩
    cases hfinal.symm.trans hv
  | @recorded n w a hfinal =>
    obtain ⟨⟨⟩, rfl⟩ : ∃ u, a = .ok u := ht _ List.mem_cons_self rfl
    have hledger : Ledger others ((.opens .executions e.id start.fields :: es) ++
      [.changes .executions e.actor.tenant e.id (e.endOf r n w).fields]) rows := hledger
    obtain ⟨rows', -, hbefore, -, -, -, rfl⟩ := hledger.of_changes
    obtain ⟨steps, rfl, hsteps⟩ := hbefore.first_row hes
    have hwhole := hbefore.isWhole _ List.mem_cons_self
    refine ⟨_, _, rfl, ?_, iff_of_true ((e.endOf r n w).isTerminal hwhole isNamed_started) ⟨w, hfinal⟩, ?_⟩
    · rw [Row.isNamed_changed (e.endOf r n w).names.1]
      exact isNamed_started
    · intro step' hstep'
      obtain ⟨step, hstep, rfl⟩ := List.mem_map.mp hstep'
      rw [Row.relation_changed]
      exact hsteps step hstep

/-- **What the entries of a run leave behind** at its end, if all its records were made. -/
theorem Journey.filed {result : Except Failure Execution} (h : Journey g o t result) (ht : t.IsRecorded)
    (hledger : Ledger others t.entries rows) : Filed g o t rows := by
  have hterminal := hledger.areClosedBut ht (h.brackets.closed [])
  cases h with
  | unopened hvain =>
    have hnone : t.entries = [] :=
      Course.entries_of_isAudit fun m hm => isAudit_of_isVain (hvain m hm) (ht m hm)
    obtain rfl := (hnone ▸ hledger).eq_nil
    exact .nothing hvain
  | @opened stored vs final n start id inner closing r r' hvs hbody hclosing =>
    rw [entries_opened] at hledger
    have hclosed : closing.IsRecorded :=
      (Course.isRecorded_append.mp (Course.isRecorded_append.mp (Course.isRecorded_append.mp ht).1).2).2
    obtain ⟨row, steps, rfl, hnamed, hiff, hsteps⟩ := execution_row (body_entries hbody) hclosing hclosed hledger
    refine .records hvs hbody rfl hnamed hiff fun step hstep => ⟨hsteps step hstep, ?_⟩
    obtain h | ⟨run, hrun, -⟩ := hterminal step (List.mem_cons_of_mem _ hstep) (hsteps step hstep)
    · exact h
    · cases hrun

end Engine

/-! ## Runs whose records nobody else touches -/

/-- The moments that may follow as long as a run adds rows to the audit under these ids only, and nobody else touches those. -/
def Moment.GoesApart {w : Wiring} (i : Nat) (ids : Value → Bool) : Moment w.setting → Moment w.setting → Prop :=
  Relation.ReflTransGen fun m m' => Move m m' ∧
    (m.activity.IsOf i → (m'.schedule.world.database.records fun id => !ids id).length =
      (m.schedule.world.database.records fun id => !ids id).length) ∧
    (¬ m.activity.IsOf i → m'.schedule.world.database.records ids = m.schedule.world.database.records ids)

/-- On the way from one moment to another a run has added this row to the audit. -/
def Moment.HasAdded {w : Wiring} (i : Nat) (m m' : Moment w.setting) (row : Row) : Prop :=
  ∃ m₁, m.Goes m₁ ∧ m₁.activity.IsOf i ∧ m₁.next.Goes m' ∧
    m₁.next.schedule.world.database.audit = m₁.schedule.world.database.audit ++ [row]

section Apart

variable {w : Wiring} {i : Nat} {ids : Value → Bool} {m m' m'' : Moment w.setting} {row : Row}

/-- As long as nobody else touches the audit a run may add rows under any ids. -/
theorem Moment.GoesApart.of_goesAlone (h : m.GoesAlone i (fun w : World => w.database.audit) m') :
    m.GoesApart i (fun _ => true) m' := by
  refine Relation.ReflTransGen.mono (fun m m' => ?_) _ _ h
  rintro ⟨hmove, hof⟩
  have hnone : ∀ db : Database, db.records (fun _ => !true) = [] := fun db =>
    List.filter_eq_nil_iff.mpr fun _ _ => Bool.false_ne_true
  refine ⟨hmove, fun _ => by rw [hnone, hnone], fun hof' => ?_⟩
  exact Database.SameAudit.records (hof.resolve_left hof') _

theorem Moment.HasAdded.move (h : m.HasAdded i m' row) (hmove : Move m' m'') : m.HasAdded i m'' row := by
  obtain ⟨m₁, hgoes, hof, hlater, hadded⟩ := h
  exact ⟨m₁, hgoes, hof, hlater.move hmove, hadded⟩

/-- What a database enters is opened under these ids, if no row is added under others. -/
theorem Database.Enters.opened_under {db db' : Database} {e? : Option Entry} {es : List Entry} {tenant : String}
    (h : db.Enters e? db') (hfollows : ∀ e ∈ e?, e.FollowsOn es tenant)
    (hlength : (db'.records fun id => !ids id).length = (db.records fun id => !ids id).length) :
    ∀ e ∈ e?, ∀ id ∈ e.opened?, ids (.str id) := by
  cases h with
  | nothing => exact nofun
  | @opens _ r id fields _ hdb =>
    rintro _ ⟨⟩ _ ⟨⟩
    rw [records_append (hfollows _ rfl).1 hdb] at hlength
    cases hid : ids (.str id) with
    | true => rfl
    | false =>
      rw [hid, List.length_append] at hlength
      exact absurd hlength (Nat.succ_ne_self _)
  | changes =>
    rintro _ ⟨⟩ _ ⟨⟩

/-- What a database enters as opened is a row that is added. -/
theorem Database.Enters.added {db db' : Database} {e? : Option Entry} {es : List Entry} {tenant : String}
    (h : db.Enters e? db') (hfollows : ∀ e ∈ e?, e.FollowsOn es tenant) :
    ∀ e ∈ e?, ∀ id ∈ e.opened?, ∃ row : Row, db'.audit = db.audit ++ [row] ∧ row.value "id" = .str id := by
  cases h with
  | nothing => exact nofun
  | @opens _ r id fields _ hdb =>
    rintro _ ⟨⟩ _ ⟨⟩
    exact ⟨_, audit_append (hfollows _ rfl).1 hdb, value_id_row⟩
  | changes =>
    rintro _ ⟨⟩ _ ⟨⟩

end Apart

namespace Engine

variable {w : Wiring} {g : Engine} {o : Order} {s : Schedule w.setting} {token : Option Nat} {m m' : Moment w.setting}
  {ids : Value → Bool}

/-! ## Runs that succeed -/

/-- In a walk that succeeds all records are made. -/
theorem Walk.isRecorded {e : Opened} {part : Part} {vs vs' : Variables} {t : Course} {r : Except Failure Unit}
    (h : Walk g e part vs t r vs') (hr : r = .ok ()) : t.IsRecorded := by
  induction h with
  | finished | unknown | unlisted | ended => exact List.forall_mem_nil _
  | stopped | fails | refused | broken => cases hr
  | goesOn _ _ _ ih ih' =>
    refine Course.isRecorded_append.mpr ⟨?_, ih' hr⟩
    exact ih rfl
  | @recorded path task vs vs' n n' id t r a _ _ ih =>
    cases a with
    | error f => cases hr
    | ok _ =>
      refine Course.isRecorded_append.mpr ⟨?_, ?_⟩
      · exact List.forall_mem_cons.mpr ⟨fun _ => ⟨id, rfl⟩, ih hr⟩
      · exact List.forall_mem_singleton.mpr fun _ => ⟨(), rfl⟩
  | plain hp h =>
    intro m hm hc
    rw [Call.isAudit_of_isErrand (calls_of_plain hp h m hm)] at hc
    cases hc
  | looped _ _ ih => exact ih hr
  | again _ _ ih ih' => exact Course.isRecorded_append.mpr ⟨ih rfl, ih' hr⟩

/-- **A run that succeeds** has made all its records. -/
theorem isRecorded_of_leads {t : Course} {result : Execution} (h : (g.run o).run.Leads t (.ok result)) : t.IsRecorded := by
  generalize hresult : Except.ok result = outcome at h
  cases journey_of_leads h with
  | unopened => cases hresult
  | @opened stored vs final n start id inner closing r r' hvs hbody hclosing =>
    have hopening : Course.IsRecorded (g.opening o stored n start id) := by
      refine List.forall_mem_cons.mpr ⟨nofun, List.forall_mem_singleton.mpr fun _ => ⟨id, rfl⟩⟩
    cases hclosing with
    | unrecorded => cases hresult
    | @recorded n' w a hfinal =>
      cases a with
      | error f => cases hresult
      | ok _ =>
        cases r with
        | error f => cases hresult
        | ok _ =>
          obtain ⟨f, -, -, ⟨⟩, -⟩ | ⟨workflow, -, hwalk⟩ := leads_body hbody
          have hinner := (walk_of_leads _ _ _ _ hwalk).isRecorded rfl
          refine Course.isRecorded_append.mpr ⟨Course.isRecorded_append.mpr ⟨hopening,
            Course.isRecorded_append.mpr ⟨hinner, ?_⟩⟩, List.forall_mem_nil _⟩
          exact List.forall_mem_singleton.mpr fun _ => ⟨(), rfl⟩

/-! ## Rows at every moment -/

/-- The rows that entries have opened are rows that a run has added. -/
def HaveAdded (i : Nat) (m m' : Moment w.setting) (es : List Entry) : Prop :=
  ∀ e ∈ es, ∀ id ∈ e.opened?, ∃ row, m.HasAdded i m' row ∧ row.value "id" = .str id

theorem HaveAdded.move {i : Nat} {m'' : Moment w.setting} {es es' : List Entry} {tenant : String} (h : HaveAdded i m m' es)
    (hgoes : m.Goes m') (hmove : Move m' m'') (henters : m'.Enters i tenant m'' es es') : HaveAdded i m m'' es' := by
  have hbefore : HaveAdded i m m'' es := by
    intro e he id hid
    obtain ⟨row, hadded, hrow⟩ := h e he id hid
    exact ⟨row, hadded.move hmove, hrow⟩
  cases henters with
  | @own e? hof hfollows henters =>
    refine List.forall_mem_append.mpr ⟨hbefore, fun e he id hid => ?_⟩
    obtain ⟨row, hadded, hrow⟩ := henters.added hfollows e (Option.mem_toList.mp he) id hid
    obtain rfl := hmove.eq_next_of_isOf hof
    exact ⟨row, ⟨m', hgoes, hof, .refl _, hadded⟩, hrow⟩
  | others => exact hbefore

/-- There is an account of a run at every moment, and the rows that it opens are rows that the run has added. -/
theorem accounts_of_goes (hw : w.stores = .onDatabase) (h : (launched g o s token).Goes m) :
    ∃ φ t, m.In s.fibers.length φ ∧ Accounts w (g.run o).run s.fibers.length m φ t ∧
      HaveAdded s.fibers.length (launched g o s token) m t.entries := by
  induction h with
  | refl => exact ⟨_, [], s.in_launch _ _, .told ⟨rfl, rfl⟩ trivial, nofun⟩
  | tail hgoes hmove ih =>
    obtain ⟨φ, t, hin, haccounts, hadded⟩ := ih
    obtain ⟨φ', hin', hφ⟩ := hmove.phase hin
    obtain ⟨t', haccounts', henters⟩ := haccounts.step hw (run_obeys_bookkeeping g o) hin hmove hin' hφ
    exact ⟨φ', t', hin', haccounts', hadded.move hgoes hmove henters⟩

/-- A run leaves all rows of the audit as they are but those that it has added itself. -/
theorem spares_of_isOf (hw : w.stores = .onDatabase) (h : (launched g o s token).Goes m) (hof : m.activity.IsOf s.fibers.length)
    (hids : ∀ row, (launched g o s token).HasAdded s.fibers.length m.next row → ids (row.value "id") = false) :
    m.next.schedule.world.database.records ids = m.schedule.world.database.records ids := by
  obtain ⟨φ, t, hin, haccounts, hadded⟩ := accounts_of_goes hw h
  obtain ⟨φ', hin', hφ⟩ := (Move.next m).phase hin
  obtain ⟨t', -, henters⟩ := haccounts.step hw (run_obeys_bookkeeping g o) hin (.next m) hin' hφ
  have hadded' := hadded.move h (.next m) henters
  generalize t'.entries = es at henters hadded'
  cases henters with
  | own _ hfollows henters =>
    refine henters.spares hfollows fun e he id hid => ?_
    obtain ⟨row, hrow, hvalue⟩ := hadded' e he id hid
    exact hvalue ▸ hids row hrow
  | others hnot => exact absurd hof hnot

/-- The rows under the ids of a run are those from before and what its entries leave behind. -/
theorem replays_of_goesApart (hw : w.stores = .onDatabase) (h : (launched g o s token).GoesApart s.fibers.length ids m) :
    ∃ φ t rows, m.In s.fibers.length φ ∧ Accounts w (g.run o).run s.fibers.length m φ t ∧
      Ledger (s.world.database.records ids) t.entries rows ∧
      m.schedule.world.database.records ids = s.world.database.records ids ++ rows := by
  induction h with
  | refl => exact ⟨_, [], [], s.in_launch _ _, .told ⟨rfl, rfl⟩ trivial, .empty, (List.append_nil _).symm⟩
  | tail _ hmove ih =>
    obtain ⟨φ, t, rows, hin, haccounts, hledger, hrows⟩ := ih
    obtain ⟨hmove, hown, hothers⟩ := hmove
    obtain ⟨φ', hin', hφ⟩ := hmove.phase hin
    obtain ⟨t', haccounts', henters⟩ := haccounts.step hw (run_obeys_bookkeeping g o) hin hmove hin' hφ
    refine ⟨φ', t', ?_⟩
    suffices hnext : ∃ rows', Ledger (s.world.database.records ids) t'.entries rows' ∧ _ = _ ++ rows' by
      obtain ⟨rows', hnext⟩ := hnext
      exact ⟨rows', hin', haccounts', hnext⟩
    generalize t'.entries = es at henters
    cases henters with
    | own hof hfollows henters =>
      exact henters.ledger t.isPlain_entries hfollows (henters.opened_under hfollows (hown hof)) hledger hrows
    | others hnot => exact ⟨rows, hledger, (hothers hnot).trans hrows⟩

/-- **The audit of a run is what its calls say**, on the database, whatever else is going on. Each effect that is made for a run
leaves all records as they are but those that the run has added itself. As long as nobody else touches the records under some
ids, and the run adds records under these ids only, the records under them are those from before, followed by what the entries
of the run leave behind: each id is new, and each change finds one row, which the run has opened before, and sets what the call
says. When the run has ended, and all its records were made, these are the rows of its execution and of its step runs; all step
runs are closed, and the execution is closed exactly if the variables have a recorded form at the end. -/
theorem audit_is_replayed (w : Wiring) (hw : w.stores = .onDatabase) (g : Engine) (o : Order) (s : Schedule w.setting)
    (token : Option Nat) :
    let i := s.fibers.length
    let begun := launched g o s token
    (∀ ids m, begun.Goes m → m.activity.IsOf i → (∀ row, begun.HasAdded i m.next row → ids (row.value "id") = false) →
      m.next.schedule.world.database.records ids = m.schedule.world.database.records ids) ∧
    (∀ ids m, begun.GoesApart i ids m → ∃ (t : Course) (rows : List Row), (∃ rest, (g.run o).run.Leaves t rest) ∧
      Ledger (s.world.database.records ids) t.entries rows ∧
      m.schedule.world.database.records ids = s.world.database.records ids ++ rows ∧
      ∀ ending, m.schedule.result? i = some ending →
        (t = [] ∧ ∃ message, ending = .error message) ∨
        ∃ result, (g.run o).run.Leads t result ∧ (∀ r, ending = .ok r → r = result) ∧ (t.IsRecorded → g.Filed o t rows)) := by
  refine ⟨fun ids m => spares_of_isOf hw, fun ids m h => ?_⟩
  obtain ⟨φ, t, rows, hin, haccounts, hledger, hrows⟩ := replays_of_goesApart hw h
  refine ⟨t, rows, haccounts.leaves, hledger, hrows, fun ending hending => ?_⟩
  obtain rfl := hin.eq_ended hending
  obtain ⟨hleft, -⟩ | _ := haccounts
  have hend : ∀ result, (g.run o).run.Leaves t (.done result) → (g.run o).run.Leads t result ∧ (t.IsRecorded → g.Filed o t rows) :=
    fun result h => ⟨h.leads, fun ht => (journey_of_leads h.leads).filed ht hledger⟩
  cases ending with
  | ok result =>
    obtain ⟨hleads, hfiled⟩ := hend result hleft
    exact .inr ⟨result, hleads, fun r hr => (Except.ok.inj hr).symm, hfiled⟩
  | error message =>
    obtain rfl | ⟨result, hleft⟩ := hleft
    · exact .inl ⟨rfl, message, rfl⟩
    · obtain ⟨hleads, hfiled⟩ := hend result hleft
      exact .inr ⟨result, hleads, nofun, hfiled⟩

end Engine

namespace Supplying

/-- The run when it has ended has touched the audit alone. -/
theorem goesApart_supplied : beginning.GoesApart 0 (fun _ => true) ⟨.idle, supplied⟩ :=
  .of_goesAlone ((Moment.GoesAlone.take _ _).trans
    (.of_through (Moment.through_carryOut (m := beginning.schedule.take (.step 0 none)) (i := 0) rfl)))

/-- The result of the run, if it has come to one. -/
def isDone : Option (Except String (Except Failure Execution)) → Bool
  | some (.ok (.ok _)) => true
  | _ => false

theorem exists_of_isDone {ending : Option (Except String (Except Failure Execution))} (h : isDone ending = true) :
    ∃ e, ending = some (.ok (.ok e)) := by
  unfold isDone at h
  split at h
  · exact ⟨_, rfl⟩
  · cases h

theorem exists_supplied : ∃ e, supplied.result? 0 = some (.ok (.ok e)) := by
  refine exists_of_isDone ?_
  rw [supplied_eq]
  decide +kernel

/-- The run opens an execution and a step run, and closes the step run. -/
theorem supplied_is_replayed :
    ∃ (t : Course) (rows : List Row), Ledger [] t.entries rows ∧ supplied.world.database.audit = rows ∧
      rows.map (·.relation) = [.executions, .stepRuns] ∧ ∀ row ∈ rows, row.relation = .stepRuns → row.IsTerminal := by
  obtain ⟨-, hreplay⟩ := Engine.audit_is_replayed wiring rfl {} order { world := { database } } none
  obtain ⟨t, rows, -, hledger, hrows, hend⟩ := hreplay _ _ goesApart_supplied
  have hbefore : database.records (fun _ => true) = [] := rfl
  have haudit : supplied.world.database.audit = rows := by
    rw [hbefore] at hrows
    exact (List.filter_true _).symm.trans hrows
  have hrelations : rows.map (·.relation) = [.executions, .stepRuns] := by
    rw [← haudit, supplied_eq]
    decide +kernel
  obtain ⟨e, hdone⟩ := exists_supplied
  refine ⟨t, rows, hledger, haudit, hrelations, ?_⟩
  obtain ⟨-, message, ⟨⟩⟩ | ⟨result, hleads, hresult, hfiled⟩ := hend _ hdone
  obtain rfl := hresult _ rfl
  cases hfiled (Engine.isRecorded_of_leads hleads) with
  | nothing => cases hrelations
  | records _ _ _ hnamed _ hsteps =>
    intro row hrow hrelation
    rcases List.mem_cons.mp hrow with rfl | hrow
    · cases (Row.relation_of_isNamed hnamed).symm.trans hrelation
    · exact (hsteps row hrow).2

end Supplying

end Runbook
