import Runbook.Proofs.Books
import Runbook.Proofs.Tenant

/-!
# What is written to the audit

With the stores on the database each call of the audit is a single effect, which adds a row or changes those that its condition
selects. A call that keeps the books selects the one row that was opened under its id, so the rows go on as the ledger of the
entries does, and the rows of all others stay. No other call of a run touches the audit.

* `Database.audit`, `Database.records`: the rows of the audit, and those under some ids.
* `Database.Enters`: what a database becomes by an entry. **`Wiring.perform_enters`**: what is done for a call of the audit.
* **`Database.Enters.ledger`**: the rows go on as the ledger. **`Database.Enters.spares`**: the rows under other ids stay.
* **`Call.keepsAudit`**: the statements of all other calls leave the audit as it is.
-/

namespace Runbook

/-! ## The rows of the audit -/

/-- The tables of the audit. -/
def Relation.isAudit : Relation → Bool
  | executions | stepRuns => true
  | _ => false

namespace Database

/-- The rows of the audit. -/
def audit (db : Database) : List Row := db.rows.filter (·.relation.isAudit)

/-- The rows of the audit under these ids. -/
def records (db : Database) (ids : Value → Bool) : List Row := db.audit.filter fun row => ids (row.value "id")

/-- The audit of a database is that of the one before. -/
def SameAudit (db db' : Database) : Prop := db'.audit = db.audit

instance : Std.Refl SameAudit := ⟨fun _ => rfl⟩

end Database

theorem Row.value_of_isOf {row : Row} {tenant id : String} (h : row.isOf tenant id) : row.value "id" = .str id :=
  Value.eq_of_isStr (Bool.and_eq_true_iff.mp h).1

/-! ## Entries and rows -/

/-- An entry of the audit of a tenant that may follow on these entries. -/
def Entry.FollowsOn (es : List Entry) (tenant : String) : Entry → Prop
  | opens r _ fields => r.isAudit ∧ fields.get? "tenant_id" = some (.str tenant)
  | changes r owner id fields => r.isAudit ∧ owner = tenant ∧ HaveOpened es r tenant id ∧
    fields.get? "id" = none ∧ fields.get? "tenant_id" = none

/-- The ids of the records that an entry opens. -/
def Entry.opened? : Entry → Option String
  | opens _ id _ => some id
  | changes .. => none

/-- What a row becomes by a change of the rows of an id within a tenant. -/
def Row.changedFor (row : Row) (r : Relation) (tenant id : String) (fields : Fields) : Row :=
  if row.isOf tenant id then row.changed r id fields else row

namespace Database

/-- What a database becomes by a call of the audit: nothing, or what its entry says. -/
inductive Enters (db : Database) : Option Entry → Database → Prop where
  | nothing {db' : Database} : db.SameAudit db' → Enters db none db'
  | opens {db' : Database} {r : Relation} {id : String} {fields : Fields} :
    (∀ row ∈ db.rows, row.isNamed r id = false) → db'.rows = db.rows ++ [r.row (("id", .str id) :: fields)] →
      Enters db (some (.opens r id fields)) db'
  | changes {db' : Database} {r : Relation} {tenant id : String} {fields : Fields} :
    db'.rows = db.rows.map (·.changedFor r tenant id fields) → Enters db (some (.changes r tenant id fields)) db'

variable {db db' : Database} {r : Relation} {tenant id : String} {fields : Fields} {e? : Option Entry} {es : List Entry}
  {ids : Value → Bool} {others rows : List Row}

theorem SameAudit.of_rows (h : db'.rows = db.rows) : db.SameAudit db' := by
  unfold SameAudit audit
  rw [h]

theorem SameAudit.records (h : db.SameAudit db') (ids : Value → Bool) : db'.records ids = db.records ids :=
  congrArg (List.filter _) h

theorem mem_records {row : Row} (h : row ∈ db.records ids) : row ∈ db.rows ∧ ids (row.value "id") := by
  obtain ⟨haudit, hids⟩ := List.mem_filter.mp h
  exact ⟨(List.mem_filter.mp haudit).1, hids⟩

theorem value_id_row : (r.row (("id", .str id) :: fields)).value "id" = .str id :=
  Relation.value_row (v := .str id) (exists_id r) rfl

theorem audit_append (hr : r.isAudit) (h : db'.rows = db.rows ++ [r.row (("id", .str id) :: fields)]) :
    db'.audit = db.audit ++ [r.row (("id", .str id) :: fields)] := by
  unfold audit
  rw [h, List.filter_append, List.filter_singleton]
  exact congrArg (_ ++ bif · then _ else _) hr

theorem records_append (hr : r.isAudit) (h : db'.rows = db.rows ++ [r.row (("id", .str id) :: fields)]) :
    db'.records ids = db.records ids ++ bif ids (.str id) then [r.row (("id", .str id) :: fields)] else [] := by
  unfold records
  rw [audit_append hr h, List.filter_append, List.filter_singleton, value_id_row]

theorem records_map (hid : fields.get? "id" = none) (h : db'.rows = db.rows.map (·.changedFor r tenant id fields)) :
    db'.records ids = (db.records ids).map (·.changedFor r tenant id fields) := by
  have hrelation : ∀ row : Row, (row.changedFor r tenant id fields).relation = row.relation := by
    intro row
    unfold Row.changedFor
    split
    · exact Row.relation_changed
    · rfl
  have hunder : ∀ row : Row, (row.changedFor r tenant id fields).value "id" = row.value "id" := by
    intro row
    unfold Row.changedFor
    split
    · exact Row.value_changed hid (by decide)
    · rfl
  unfold records audit
  rw [h, List.filter_map, List.filter_map]
  refine congrArg _ ((List.filter_congr fun row _ => congrArg ids (hunder row)).trans (congrArg _ (List.filter_congr fun row _ => ?_)))
  exact congrArg Relation.isAudit (hrelation row)

/-- The row of an execution that is the only one with its id is the one that is read. -/
theorem execution?_of_records {row : Row}
    (hone : (db.records ids).filter (·.isNamed .executions id) = [row]) (hof : row.isOf tenant id) :
    db.execution? tenant id = some row := by
  have hids : ids (.str id) := by
    have hrow : row ∈ (db.records ids).filter (·.isNamed .executions id) := hone ▸ List.mem_cons_self
    exact Row.value_of_isOf hof ▸ (mem_records (List.mem_filter.mp hrow).1).2
  have hselect : db.select .executions (·.isOf tenant id) =
      ((db.records ids).filter (·.isNamed .executions id)).filter (·.isOf tenant id) := by
    unfold select records audit
    rw [List.filter_filter, List.filter_filter, List.filter_filter]
    refine List.filter_congr fun x _ => ?_
    change (x.relation == .executions && x.isOf tenant id) =
      (x.isOf tenant id && x.isNamed .executions id && ids (x.value "id") && x.relation.isAudit)
    cases hx : x.isOf tenant id with
    | false => simp only [Bool.and_false, Bool.false_and]
    | true =>
      have hid : x.holds "id" id := (Bool.and_eq_true_iff.mp hx).1
      have hnamed : x.isNamed .executions id = (x.relation == .executions) := by
        unfold Row.isNamed
        rw [hid, Bool.and_true]
      rw [hnamed, Row.value_of_isOf hx, hids]
      cases hrelation : x.relation == .executions with
      | false => rfl
      | true => rw [eq_of_beq hrelation]; rfl
  unfold execution? find?
  rw [hselect, hone, List.filter_singleton, hof]
  rfl

/-- **The rows go on as the ledger does**: what is opened is new, and a change finds the one row that was opened. -/
theorem Enters.ledger (h : db.Enters e? db') (hes : ∀ e ∈ es, e.IsPlain) (hfollows : ∀ e ∈ e?, e.FollowsOn es tenant)
    (hids : ∀ e ∈ e?, ∀ id ∈ e.opened?, ids (.str id)) (hledger : Ledger others es rows) (hrows : db.records ids = others ++ rows) :
    ∃ rows', Ledger others (es ++ e?.toList) rows' ∧ db'.records ids = others ++ rows' := by
  cases h with
  | nothing hdb =>
    refine ⟨rows, ?_, (hdb.records ids).trans hrows⟩
    rw [Option.toList_none, List.append_nil]
    exact hledger
  | @opens _ r id fields hfresh hdb =>
    obtain ⟨hr, -⟩ := hfollows _ rfl
    refine ⟨_, hledger.opens fun row hrow => hfresh row ?_, ?_⟩
    · exact (mem_records (hrows ▸ hrow)).1
    · rw [records_append hr hdb, hrows, hids _ rfl id rfl, List.append_assoc]
      rfl
  | @changes _ r owner id fields hdb =>
    obtain ⟨-, rfl, ⟨given, hopened, howner⟩, hid, -⟩ := hfollows _ rfl
    obtain ⟨row, hrow, hone, hof⟩ := hledger.finds hes hopened howner
    refine ⟨_, hledger.changes hone hrow hof, ?_⟩
    have hchanged : ∀ x ∈ others ++ rows, x.changedFor r owner id fields = x.changed r id fields := by
      intro x hx
      unfold Row.changedFor
      split
      · rfl
      · next hxof =>
        refine (Row.changed_of_not_isNamed (Bool.eq_false_iff.mpr fun hnamed => hxof ?_)).symm
        have hx' : x ∈ (others ++ rows).filter (·.isNamed r id) := List.mem_filter.mpr ⟨hx, hnamed⟩
        rw [hone] at hx'
        rw [List.mem_singleton.mp hx']
        exact hof
    rw [records_map hid hdb, hrows, List.map_congr_left hchanged, List.map_append,
      Ledger.map_changed_of_forall (Ledger.not_isNamed_others hone hrow)]

/-- **The rows under other ids stay** than those that are opened. -/
theorem Enters.spares (h : db.Enters e? db') (hfollows : ∀ e ∈ e?, e.FollowsOn es tenant)
    (hids : ∀ e ∈ es ++ e?.toList, ∀ id ∈ e.opened?, ids (.str id) = false) : db'.records ids = db.records ids := by
  cases h with
  | nothing hdb => exact hdb.records ids
  | @opens _ r id fields _ hdb =>
    have hid : ids (.str id) = false := hids _ (List.mem_append_right _ List.mem_cons_self) id rfl
    rw [records_append (hfollows _ rfl).1 hdb, hid]
    exact List.append_nil _
  | @changes _ r owner id fields hdb =>
    obtain ⟨-, rfl, ⟨given, hopened, -⟩, hid, -⟩ := hfollows _ rfl
    have hother : ids (.str id) = false := hids _ (List.mem_append_left _ hopened) id rfl
    rw [records_map hid hdb]
    refine (List.map_congr_left fun row hrow => ?_).trans (List.map_id' _)
    refine if_neg fun hof => ?_
    have hunder := (mem_records hrow).2
    rw [Row.value_of_isOf hof, hother] at hunder
    exact absurd hunder Bool.false_ne_true

end Database

/-! ## Calls of the audit -/

/-- An entry of a call that keeps the books follows on what is in them. -/
theorem Call.KeepsBooks.followsOn {tenant : String} {es : List Entry} {m : Made} (h : m.call.KeepsBooks tenant es) :
    ∀ e ∈ m.entry?, e.FollowsOn es tenant := by
  obtain ⟨c, r⟩ := m
  intro e he
  cases c with
  | createExecution start =>
    cases r <;> cases he
    obtain ⟨rfl, -⟩ : start.tenant = tenant ∧ _ := h
    exact ⟨rfl, rfl⟩
  | updateExecution owner id last =>
    cases r <;> cases he
    obtain ⟨rfl, hopened, -⟩ : owner = tenant ∧ _ := h
    exact ⟨rfl, rfl, hopened, last.names⟩
  | createStepRun start =>
    cases r <;> cases he
    obtain rfl : start.tenant = tenant := h
    exact ⟨rfl, rfl⟩
  | updateStepRun owner id last =>
    cases r <;> cases he
    obtain ⟨rfl, hopened⟩ : owner = tenant ∧ _ := h
    exact ⟨rfl, rfl, hopened, last.names⟩
  | _ => cases he

/-- The entries of a course touch neither the ids nor the owners of the records that they change. -/
theorem Course.isPlain_entries (t : Course) : ∀ e ∈ t.entries, e.IsPlain := by
  intro e he
  obtain ⟨⟨c, r⟩, -, hm⟩ := List.mem_filterMap.mp he
  cases c with
  | createExecution | createStepRun =>
    cases r <;> cases hm
    trivial
  | updateExecution owner id last | updateStepRun owner id last =>
    cases r <;> cases hm
    exact last.names
  | _ => cases hm

namespace Database

variable {db db' : Database} {r : Relation} {tenant id : String} {fields : Fields}

theorem enters_create {answer : Except Failure String} (hfields : ∀ id, r.Takes (("id", .str id) :: fields))
    (h : db.create r fields = (answer, db')) :
    db.Enters (answer.toOption.map fun id => .opens r id fields) db' := by
  cases answer with
  | ok id =>
    obtain ⟨hrows, hfresh⟩ := create_ok hfields h
    exact .opens hfresh hrows
  | error f => exact .nothing (.of_rows (create_error hfields h))

theorem enters_update (hfields : r.Holds fields) (h : db.update r tenant id fields = .ok db') :
    db.Enters (some (.changes r tenant id fields)) db' := by
  refine .changes ((update_ok hfields h).trans (List.map_congr_left fun row _ => ?_))
  unfold Row.changedFor Row.changed Row.isNamed
  cases hof : row.isOf tenant id with
  | true =>
    have hholds : row.holds "id" id := (Bool.and_eq_true_iff.mp hof).1
    rw [hholds]
    rfl
  | false =>
    rw [Bool.and_false]
    rfl

end Database

namespace Wiring

variable {w : Wiring} {tenant : String} {es : List Entry} {c : Call}

/-- What is done for a call is this one effect, and the call is answered by this. -/
def Does (w : Wiring) (c : Call) (f : World → World) (answer : World → Except Failure c.Answer) : Prop :=
  (w.perform c).run = .ask (.change f) fun before => .done (answer before)

/-- **What is done for a call of the audit** on the database is one effect, by which the database becomes what its entry says. -/
theorem perform_enters (hw : w.stores = .onDatabase) (hc : c.isAudit) (hbooks : c.KeepsBooks tenant es) :
    ∃ f answer, w.Does c f answer ∧ ∀ before : World, before.database.Enters (Made.entry? ⟨c, answer before⟩) (f before).database := by
  unfold Does
  cases c with
  | createExecution start =>
    obtain ⟨-, hinput, hvariables⟩ := hbooks
    unfold perform
    rw [hw]
    refine ⟨_, _, rfl, fun before => ?_⟩
    dsimp only
    cases h : before.database.createExecution start.fields with
    | mk answer db' =>
      have henters := Database.enters_create (start.takes hinput hvariables) h
      cases answer <;> exact henters
  | createStepRun start =>
    unfold perform
    rw [hw]
    refine ⟨_, _, rfl, fun before => ?_⟩
    dsimp only
    cases h : before.database.createStepRun start.fields with
    | mk answer db' =>
      have henters := Database.enters_create start.takes h
      cases answer <;> exact henters
  | updateExecution owner id last =>
    unfold perform
    rw [hw]
    refine ⟨_, _, rfl, fun before => ?_⟩
    dsimp only
    cases h : before.database.updateExecution owner id last.fields with
    | ok db' => exact Database.enters_update (last.holds hbooks.2.2) h
    | error f => exact .nothing (refl_of Database.SameAudit _)
  | updateStepRun owner id last =>
    unfold perform
    rw [hw]
    refine ⟨_, _, rfl, fun before => ?_⟩
    dsimp only
    cases h : before.database.updateStepRun owner id last.fields with
    | ok db' => exact Database.enters_update last.holds h
    | error f => exact .nothing (refl_of Database.SameAudit _)
  | _ => cases hc

end Wiring

/-! ## Calls that do not touch the audit -/

namespace Database

variable {db db' : Database} {r : Relation} {fields : Fields}

theorem SameAudit.trans {db'' : Database} (h : db.SameAudit db') (h' : db'.SameAudit db'') : db.SameAudit db'' := Eq.trans h' h

theorem freshId_sameAudit (db : Database) : db.SameAudit db.freshId.2 := .of_rows rfl

theorem insertSlots_sameAudit {slots : Slots} (hr : r.isAudit = false) (h : db.insertSlots r slots = .ok db') :
    db.SameAudit db' := by
  obtain ⟨slots', -, h⟩ := bind_eq_ok h
  obtain ⟨-, -, h⟩ := bind_eq_ok h
  obtain ⟨-, -, h⟩ := bind_eq_ok h
  cases h
  show List.filter _ (db.rows ++ [⟨r, slots'.cells⟩]) = List.filter _ db.rows
  rw [List.filter_append, List.filter_singleton, hr]
  exact List.append_nil _

theorem orUnchanged_sameAudit {x : Except Failure Database} (h : ∀ db', x = .ok db' → db.SameAudit db') :
    db.SameAudit (db.orUnchanged x).2 := by
  cases x with
  | ok db' => exact h db' rfl
  | error f => exact refl_of SameAudit db

theorem insert_sameAudit (hr : r.isAudit = false) : db.SameAudit (db.insert r fields).2 := by
  unfold insert
  dsimp only
  split
  · exact (freshId_sameAudit db).trans (orUnchanged_sameAudit fun _ => insertSlots_sameAudit hr)
  · exact orUnchanged_sameAudit fun _ => insertSlots_sameAudit hr

theorem change_sameAudit {selects : Row → Bool} (hr : r.isAudit = false) (h : db.change r selects fields = .ok db') :
    db.SameAudit db' := by
  obtain ⟨slots, -, h⟩ := bind_eq_ok h
  have hrows : List.filter (·.relation.isAudit)
      (db.rows.map fun row => if row.relation == r && selects row then row.setAll slots.cells else row) = db.audit := by
    rw [List.filter_map]
    have hfilter : List.filter ((·.relation.isAudit) ∘ fun row : Row =>
        if row.relation == r && selects row then row.setAll slots.cells else row) db.rows = db.audit := by
      refine List.filter_congr fun row _ => ?_
      show Relation.isAudit (Row.relation (if _ then _ else _)) = _
      split <;> rfl
    rw [hfilter]
    refine (List.map_congr_left fun row hrow => if_neg fun htarget => ?_).trans (List.map_id' _)
    have haudit := (List.mem_filter.mp hrow).2
    rw [eq_of_beq (Bool.and_eq_true_iff.mp htarget).1, hr] at haudit
    exact Bool.false_ne_true haudit
  dsimp only at h
  split at h
  · obtain ⟨-, -, h⟩ := bind_eq_ok h
    cases h
    exact hrows
  · cases h
    exact hrows

theorem record_sameAudit (recipient : Recipient) (payload : Payload) : db.SameAudit (db.record recipient payload).2 := by
  unfold record
  exact (freshId_sameAudit db).trans (insert_sameAudit rfl)

theorem insertRecord_sameAudit (t : Table) (tenant : String) : db.SameAudit (db.insertRecord t tenant fields).2 := by
  unfold insertRecord
  split
  · exact insert_sameAudit rfl
  · exact refl_of SameAudit db

theorem updateRecord_sameAudit {t : Table} {tenant id : String} {found : Bool}
    (h : db.updateRecord t tenant id fields = .ok (found, db')) : db.SameAudit db' := by
  obtain ⟨parts, -, h⟩ := bind_eq_ok h
  split at h
  · cases h
    exact refl_of SameAudit db
  · dsimp only at h
    split at h
    · cases h
      exact refl_of SameAudit db
    · obtain ⟨db₁, hchange, h⟩ := bind_eq_ok h
      cases h
      exact change_sameAudit rfl hchange

end Database

/-- **The statements of a call that is not of the audit** leave the audit as it is. -/
theorem Call.keepsAudit {c : Call} (hc : c.isAudit = false) : c.Keeps Database.SameAudit := by
  cases c with
  | createExecution | updateExecution | createStepRun | updateStepRun => cases hc
  | freshId => exact Database.freshId_sameAudit
  | notify recipients payload =>
    exact fun recipient _ db => Database.record_sameAudit recipient payload
  | insert table tenant record => exact fun db => Database.insertRecord_sameAudit table tenant
  | update table tenant id fields => exact fun db db' found h => Database.updateRecord_sameAudit h
  | getWorkflow | sendEmail | http | closeHttp => trivial

end Runbook
