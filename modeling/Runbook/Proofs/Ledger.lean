import Mathlib.Data.List.Induction
import Runbook.Proofs.Row
import Runbook.Proofs.Rule
import Runbook.Proofs.Unwind

/-!
# The audit as a ledger

Each call of the audit that succeeds is an entry: it opens a record under an id, or it changes the record of an id within a
tenant. To replay the entries is to add rows and to change them one at a time, each change that of the one row that an earlier
entry has opened. So the rows at the end are known from the calls alone.

* `Entry`, `Course.entries`: the entries that a course makes.
* `Ledger`: the rows that entries leave behind those of others. **`Ledger.finds`**, **`Ledger.finds_changed`**: what was opened
  is found again, and what was changed last is found as it was changed.
* `Row.IsTerminal`: the row of a record that has been closed.
* `AreClosedBut`: the step runs that are not open are closed. **`Ledger.areClosedBut`**: so it is after every course.
-/

namespace Runbook

/-! ## Entries -/

/-- What a call of the audit does to the records. -/
inductive Entry where
  | opens (r : Relation) (id : String) (fields : Fields)
  | changes (r : Relation) (tenant id : String) (fields : Fields)

/-- The entry that a call makes if it succeeds. -/
def Made.entry? : Made → Option Entry
  | ⟨.createExecution start, r⟩ => match (r : Except Failure String) with
    | .ok id => some (.opens .executions id start.fields)
    | .error _ => none
  | ⟨.updateExecution tenant id last, r⟩ => match (r : Except Failure Unit) with
    | .ok _ => some (.changes .executions tenant id last.fields)
    | .error _ => none
  | ⟨.createStepRun start, r⟩ => match (r : Except Failure String) with
    | .ok id => some (.opens .stepRuns id start.fields)
    | .error _ => none
  | ⟨.updateStepRun tenant id last, r⟩ => match (r : Except Failure Unit) with
    | .ok _ => some (.changes .stepRuns tenant id last.fields)
    | .error _ => none
  | _ => none

theorem Made.entry?_of_isAudit {m : Made} (h : m.call.isAudit = false) : m.entry? = none := by
  obtain ⟨c, r⟩ := m
  cases c <;> first | rfl | cases h

/-- The entries that a course makes. -/
def Course.entries (t : Course) : List Entry := t.calls.filterMap Made.entry?

namespace Course

theorem entries_append (t t' : Course) : entries (t ++ t') = entries t ++ entries t' := by
  rw [entries, calls_append, List.filterMap_append]
  rfl

/-- What is asked of others makes no entry. -/
theorem entries_of_isAudit {t : Course} (h : ∀ m ∈ t.calls, m.call.isAudit = false) : t.entries = [] :=
  List.filterMap_eq_nil_iff.mpr fun m hm => Made.entry?_of_isAudit (h m hm)

end Course

/-- An entry that touches neither the id nor the owner of a record that it changes. -/
def Entry.IsPlain : Entry → Prop
  | opens .. => True
  | changes _ _ _ fields => fields.get? "id" = none ∧ fields.get? "tenant_id" = none

/-! ## Rows under an id -/

namespace Row

variable {row : Row} {r r' : Relation} {id id' tenant name : String} {fields : Fields} {v : Value}

/-- The row with the fields set, if it is that of a table under an id. -/
def changed (row : Row) (r : Relation) (id : String) (fields : Fields) : Row :=
  if row.isNamed r id then row.setAll (r.cells fields) else row

theorem changed_of_isNamed (h : row.isNamed r id) : row.changed r id fields = row.setAll (r.cells fields) := if_pos h

theorem changed_of_not_isNamed (h : row.isNamed r id = false) : row.changed r id fields = row :=
  if_neg (Bool.eq_false_iff.mp h)

theorem relation_changed : (row.changed r id fields).relation = row.relation := by
  unfold changed
  split <;> rfl

/-- What is not given stays. -/
theorem value_changed (hv : fields.get? name = none) (hname : name ≠ "updated_at") :
    (row.changed r id fields).value name = row.value name := by
  unfold changed
  split
  · unfold Row.value
    rw [Row.cell?_setAll, Relation.lookup_cells_eq_none hv hname]
    cases row.cell? name <;> rfl
  · rfl

theorem isNamed_changed (hid : fields.get? "id" = none) : (row.changed r id fields).isNamed r' id' = row.isNamed r' id' := by
  unfold isNamed holds
  rw [relation_changed, value_changed hid (by decide)]

theorem isOf_changed (hid : fields.get? "id" = none) (howner : fields.get? "tenant_id" = none) :
    (row.changed r id fields).isOf tenant id' = row.isOf tenant id' := by
  unfold isOf holds
  rw [value_changed hid (by decide), value_changed howner (by decide)]

theorem isNamed_row : (r.row (("id", .str id) :: fields)).isNamed r' id' = (r == r' && id == id') := by
  unfold isNamed holds
  rw [Relation.value_row (Database.exists_id r) rfl]
  rfl

theorem isOf_row (howner : fields.get? "tenant_id" = some (.str tenant)) :
    (r.row (("id", .str id) :: fields)).isOf tenant id := by
  have hcolumn : (r.column? "tenant_id").isSome := by
    cases r with
    | records t => cases t <;> decide
    | _ => decide
  have howner : Fields.get? (("id", .str id) :: fields) "tenant_id" = some (.str tenant) := howner
  unfold isOf holds
  rw [Relation.value_row (Database.exists_id r) rfl, Relation.value_row hcolumn howner]
  exact Bool.and_eq_true_iff.mpr ⟨beq_self_eq_true id, beq_self_eq_true tenant⟩

end Row

/-! ## Ledgers -/

/-- The rows that entries leave behind the rows of others. An id that is opened is new, and a change finds a single row with its
id, one that was opened before, of the tenant that it is made for. -/
inductive Ledger (others : List Row) : List Entry → List Row → Prop where
  | empty : Ledger others [] []
  | opens {es : List Entry} {rows : List Row} {r : Relation} {id : String} {fields : Fields} :
    Ledger others es rows → (∀ row ∈ others ++ rows, row.isNamed r id = false) →
      Ledger others (es ++ [.opens r id fields]) (rows ++ [r.row (("id", .str id) :: fields)])
  | changes {es : List Entry} {rows : List Row} {row : Row} {r : Relation} {tenant id : String} {fields : Fields} :
    Ledger others es rows → (others ++ rows).filter (·.isNamed r id) = [row] → row ∈ rows → row.isOf tenant id →
      Ledger others (es ++ [.changes r tenant id fields]) (rows.map (·.changed r id fields))

namespace Ledger

variable {others rows : List Row} {es : List Entry} {r : Relation} {id tenant : String} {fields : Fields}

theorem eq_nil (h : Ledger others [] rows) : rows = [] := by
  generalize hes : ([] : List Entry) = es at h
  cases h with
  | empty => rfl
  | opens | changes => exact absurd hes.symm (List.concat_ne_nil _ _)

theorem of_opens (h : Ledger others (es ++ [.opens r id fields]) rows) :
    ∃ rows', Ledger others es rows' ∧ (∀ row ∈ others ++ rows', row.isNamed r id = false) ∧
      rows = rows' ++ [r.row (("id", .str id) :: fields)] := by
  generalize hes : es ++ [Entry.opens r id fields] = es' at h
  cases h with
  | empty => exact absurd hes (List.concat_ne_nil _ _)
  | opens h hfresh =>
    obtain ⟨rfl, heq⟩ := List.append_inj' hes rfl
    cases heq
    exact ⟨_, h, hfresh, rfl⟩
  | changes =>
    obtain ⟨-, heq⟩ := List.append_inj' hes rfl
    cases heq

theorem of_changes (h : Ledger others (es ++ [.changes r tenant id fields]) rows) :
    ∃ rows' row, Ledger others es rows' ∧ (others ++ rows').filter (·.isNamed r id) = [row] ∧ row ∈ rows' ∧
      row.isOf tenant id ∧ rows = rows'.map (·.changed r id fields) := by
  generalize hes : es ++ [Entry.changes r tenant id fields] = es' at h
  cases h with
  | empty => exact absurd hes (List.concat_ne_nil _ _)
  | opens =>
    obtain ⟨-, heq⟩ := List.append_inj' hes rfl
    cases heq
  | changes h hone hmem hof =>
    obtain ⟨rfl, heq⟩ := List.append_inj' hes rfl
    cases heq
    exact ⟨_, _, h, hone, hmem, hof, rfl⟩

theorem filter_changed (l : List Row) {r' : Relation} {id' : String} (hid : fields.get? "id" = none) :
    (l.map (·.changed r id fields)).filter (·.isNamed r' id') = (l.filter (·.isNamed r' id')).map (·.changed r id fields) := by
  rw [List.filter_map]
  refine congrArg _ (List.filter_congr fun row _ => ?_)
  exact Row.isNamed_changed hid

theorem map_changed_of_forall {l : List Row} (h : ∀ row ∈ l, row.isNamed r id = false) :
    l.map (·.changed r id fields) = l :=
  (List.map_congr_left fun row hrow => Row.changed_of_not_isNamed (h row hrow)).trans (List.map_id' l)

/-- Where the only row with an id is that of the ledger, all other rows have other ids. -/
theorem not_isNamed_others {row : Row} (hone : (others ++ rows).filter (·.isNamed r id) = [row])
    (hmem : row ∈ rows) : ∀ x ∈ others, x.isNamed r id = false := by
  rw [List.filter_append] at hone
  have hnamed : row ∈ rows.filter (·.isNamed r id) := by
    refine List.mem_filter.mpr ⟨hmem, ?_⟩
    have hrow : row ∈ others.filter (·.isNamed r id) ++ rows.filter (·.isNamed r id) := hone ▸ List.mem_cons_self
    exact (List.mem_append.mp hrow).elim (fun h => (List.mem_filter.mp h).2) fun h => (List.mem_filter.mp h).2
  have hothers : others.filter (·.isNamed r id) = [] := by
    have hlength := congrArg List.length hone
    have hpos := List.length_pos_of_mem hnamed
    rw [List.length_append, List.length_singleton] at hlength
    exact List.eq_nil_of_length_eq_zero (by omega)
  intro x hx
  exact Bool.eq_false_iff.mpr fun hx' => List.filter_eq_nil_iff.mp hothers x hx hx'

/-- A change leaves the rows of others as they are. -/
theorem append_map_changed {row : Row} (hone : (others ++ rows).filter (·.isNamed r id) = [row]) (hmem : row ∈ rows) :
    others ++ rows.map (·.changed r id fields) = (others ++ rows).map (·.changed r id fields) := by
  rw [List.map_append, map_changed_of_forall (not_isNamed_others hone hmem)]

/-- **What was opened is found again**: it is the only row with its id, and of the tenant that it was opened for. -/
theorem finds (h : Ledger others es rows) (hes : ∀ e ∈ es, e.IsPlain) (hmem : .opens r id fields ∈ es)
    (howner : fields.get? "tenant_id" = some (.str tenant)) :
    ∃ row ∈ rows, (others ++ rows).filter (·.isNamed r id) = [row] ∧ row.isOf tenant id := by
  induction h with
  | empty => cases hmem
  | @opens es rows r' id' fields' hledger hfresh ih =>
    rw [← List.append_assoc, List.filter_append]
    obtain ⟨hplain, -⟩ := List.forall_mem_append.mp hes
    rcases List.mem_append.mp hmem with hmem | hmem
    · obtain ⟨row, hrow, hone, hof⟩ := ih hplain hmem
      have hother : (r'.row (("id", .str id') :: fields')).isNamed r id = false := by
        rw [Row.isNamed_row]
        refine Bool.eq_false_iff.mpr fun hsame => ?_
        obtain ⟨hr, hid⟩ := Bool.and_eq_true_iff.mp hsame
        obtain rfl := eq_of_beq hr
        obtain rfl := eq_of_beq hid
        have hnamed : row ∈ (others ++ rows).filter (·.isNamed r' id') := hone ▸ List.mem_cons_self
        obtain ⟨hrow, hnamed⟩ := List.mem_filter.mp hnamed
        exact Bool.false_ne_true ((hfresh row hrow).symm.trans hnamed)
      refine ⟨row, List.mem_append_left _ hrow, ?_, hof⟩
      rw [hone, List.filter_singleton, hother]
      rfl
    · cases List.mem_singleton.mp hmem
      refine ⟨_, List.mem_append_right _ List.mem_cons_self, ?_, Row.isOf_row howner⟩
      have hnamed : (r.row (("id", .str id) :: fields)).isNamed r id := by
        rw [Row.isNamed_row]
        exact Bool.and_eq_true_iff.mpr ⟨beq_self_eq_true r, beq_self_eq_true id⟩
      rw [List.filter_eq_nil_iff.mpr fun row hrow => Bool.eq_false_iff.mp (hfresh row hrow), List.filter_singleton, hnamed]
      rfl
  | @changes es rows row' r' tenant' id' fields' hledger hone' hmem' hof' ih =>
    obtain ⟨hplain, hlast⟩ := List.forall_mem_append.mp hes
    obtain ⟨hid, htenant⟩ := hlast _ List.mem_cons_self
    obtain hmem | hmem := List.mem_append.mp hmem
    · obtain ⟨row, hrow, hone, hof⟩ := ih hplain hmem
      refine ⟨_, List.mem_map_of_mem hrow, ?_, (Row.isOf_changed hid htenant).trans hof⟩
      rw [append_map_changed hone' hmem', filter_changed _ hid, hone]
      rfl
    · cases List.mem_singleton.mp hmem

end Ledger

/-! ## Records that have been closed -/

/-- The row of a record that has been closed: completed or failed, with its end and its length. -/
structure Row.IsTerminal (row : Row) : Prop where
  status : row.value "status" = .str "completed" ∨ row.value "status" = .str "failed"
  completedAt : ∃ t, row.value "completed_at" = .dateTime t
  duration : ∃ n, row.value "duration_ms" = .int n

/-- A row that holds something in all columns of its table. -/
def Row.IsWhole (row : Row) : Prop := ∀ name, (row.relation.column? name).isSome → (row.cell? name).isSome

namespace Row

variable {row : Row} {r : Relation} {id name : String} {fields : Fields} {v : Value}

theorem relation_of_isNamed (h : row.isNamed r id) : row.relation = r := eq_of_beq (Bool.and_eq_true_iff.mp h).1

theorem IsWhole.changed (h : row.IsWhole) : (row.changed r id fields).IsWhole := by
  intro name hname
  rw [relation_changed] at hname
  unfold Row.changed
  split
  · rw [cell?_setAll, Option.isSome_map]
    exact h name hname
  · exact h name hname

/-- What a change is given stands in the row afterwards. -/
theorem value_changed_of_some (h : row.IsWhole) (hrow : row.isNamed r id) (hname : (r.column? name).isSome)
    (hv : fields.get? name = some v) : (row.changed r id fields).value name = v.stored := by
  obtain rfl := relation_of_isNamed hrow
  obtain ⟨c, hc⟩ := Option.isSome_iff_exists.mp (h name hname)
  rw [changed_of_isNamed hrow]
  unfold Row.value
  rw [cell?_setAll, hc, Relation.lookup_cells hname hv]
  rfl

/-- A row whose status, end and length are set is that of a closed record. -/
theorem isTerminal_changed {outcome : Outcome} {t : DateTime} {n : Int} (h : row.IsWhole) (hrow : row.isNamed r id)
    (hcolumns : ∀ name ∈ ["status", "completed_at", "duration_ms"], (r.column? name).isSome)
    (hstatus : fields.get? "status" = some (.str outcome.status)) (hend : fields.get? "completed_at" = some (.dateTime t))
    (hlength : fields.get? "duration_ms" = some (.int n)) : (row.changed r id fields).IsTerminal where
  status := by
    rw [value_changed_of_some h hrow (hcolumns _ (by simp)) hstatus]
    cases outcome
    · exact .inl rfl
    · exact .inr rfl
  completedAt := ⟨_, value_changed_of_some h hrow (hcolumns _ (by simp)) hend⟩
  duration := ⟨n, value_changed_of_some h hrow (hcolumns _ (by simp)) hlength⟩

end Row

theorem ExecutionEnd.isTerminal (last : ExecutionEnd) {row : Row} {id : String} (h : row.IsWhole)
    (hrow : row.isNamed .executions id) : (row.changed .executions id last.fields).IsTerminal := by
  obtain ⟨outcome, completedAt, milliseconds, final⟩ := last
  have hstatus : Fields.get? (ExecutionEnd.fields ⟨outcome, completedAt, milliseconds, final⟩) "status" =
      some (.str outcome.status) := by
    cases outcome <;> rfl
  refine Row.isTerminal_changed h hrow (by decide) hstatus (t := completedAt) (n := milliseconds) ?_ ?_
  · cases outcome <;> rfl
  · cases outcome <;> rfl

theorem StepRunEnd.isTerminal (last : StepRunEnd) {row : Row} {id : String} (h : row.IsWhole)
    (hrow : row.isNamed .stepRuns id) : (row.changed .stepRuns id last.fields).IsTerminal := by
  obtain ⟨outcome, completedAt, milliseconds⟩ := last
  have hstatus : Fields.get? (StepRunEnd.fields ⟨outcome, completedAt, milliseconds⟩) "status" =
      some (.str outcome.status) := by
    cases outcome <;> rfl
  refine Row.isTerminal_changed h hrow (by decide) hstatus (t := completedAt) (n := milliseconds) ?_ ?_
  · cases outcome <;> rfl
  · cases outcome <;> rfl

namespace Ledger

variable {others rows : List Row} {es : List Entry} {r : Relation} {id tenant : String} {fields : Fields}

theorem isWhole (h : Ledger others es rows) : ∀ row ∈ rows, row.IsWhole := by
  induction h with
  | empty => exact List.forall_mem_nil _
  | opens _ _ ih =>
    refine List.forall_mem_append.mpr ⟨ih, fun row hrow => ?_⟩
    obtain rfl := List.mem_singleton.mp hrow
    exact fun name => Relation.isSome_cell?_row
  | changes _ _ _ _ ih =>
    intro row' hrow'
    obtain ⟨row, hrow, rfl⟩ := List.mem_map.mp hrow'
    exact (ih row hrow).changed

/-- **What was changed last is found** as it was changed. It is the only row with its id. -/
theorem finds_changed (h : Ledger others (es ++ [.changes r tenant id fields]) rows) (hid : fields.get? "id" = none)
    (howner : fields.get? "tenant_id" = none) :
    ∃ row : Row, row.IsWhole ∧ row.isNamed r id ∧ (row.changed r id fields).isOf tenant id ∧
      (others ++ rows).filter (·.isNamed r id) = [row.changed r id fields] := by
  obtain ⟨rows', row, hledger, hone, hmem, hof, rfl⟩ := h.of_changes
  have hnamed : row ∈ (others ++ rows').filter (·.isNamed r id) := hone ▸ List.mem_cons_self
  refine ⟨row, hledger.isWhole row hmem, (List.mem_filter.mp hnamed).2, (Row.isOf_changed hid howner).trans hof, ?_⟩
  rw [append_map_changed hone hmem, filter_changed _ hid, hone]
  rfl

end Ledger

/-! ## Open step runs -/

/-- All step runs among the rows are closed but those that are open. -/
def AreClosedBut (opened : List OpenRun) (rows : List Row) : Prop :=
  ∀ row ∈ rows, row.relation = .stepRuns → row.IsTerminal ∨ ∃ run ∈ opened, row.isNamed .stepRuns run.id

namespace AreClosedBut

variable {opened : List OpenRun} {run : OpenRun} {rows : List Row} {id : String} {fields : Fields}

theorem opens_execution (h : AreClosedBut opened rows) :
    AreClosedBut opened (rows ++ [Relation.executions.row (("id", .str id) :: fields)]) := by
  refine List.forall_mem_append.mpr ⟨h, fun row hrow => ?_⟩
  obtain rfl := List.mem_singleton.mp hrow
  exact nofun

theorem opens_stepRun (h : AreClosedBut opened rows) :
    AreClosedBut (run :: opened) (rows ++ [Relation.stepRuns.row (("id", .str run.id) :: fields)]) := by
  refine List.forall_mem_append.mpr ⟨fun row hrow hrelation => ?_, fun row hrow _ => .inr ⟨run, List.mem_cons_self, ?_⟩⟩
  · obtain hterminal | ⟨run', hrun, hnamed⟩ := h row hrow hrelation
    · exact .inl hterminal
    · exact .inr ⟨run', List.mem_cons_of_mem _ hrun, hnamed⟩
  · obtain rfl := List.mem_singleton.mp hrow
    rw [Row.isNamed_row]
    exact Bool.and_eq_true_iff.mpr ⟨rfl, beq_self_eq_true _⟩

theorem changes_execution (h : AreClosedBut opened rows) : AreClosedBut opened (rows.map (·.changed .executions id fields)) := by
  intro row' hrow' hrelation
  obtain ⟨row, hrow, rfl⟩ := List.mem_map.mp hrow'
  rw [Row.relation_changed] at hrelation
  have hother : row.isNamed .executions id = false := by
    unfold Row.isNamed
    rw [hrelation]
    rfl
  rw [Row.changed_of_not_isNamed hother]
  exact h row hrow hrelation

/-- The innermost step run is closed. -/
theorem changes_stepRun (h : AreClosedBut (run :: opened) rows) (hwhole : ∀ row ∈ rows, row.IsWhole) (last : StepRunEnd) :
    AreClosedBut opened (rows.map (·.changed .stepRuns run.id last.fields)) := by
  intro row' hrow' hrelation
  obtain ⟨row, hrow, rfl⟩ := List.mem_map.mp hrow'
  rw [Row.relation_changed] at hrelation
  cases hnamed : row.isNamed .stepRuns run.id with
  | true => exact .inl (last.isTerminal (hwhole row hrow) hnamed)
  | false =>
    rw [Row.changed_of_not_isNamed hnamed]
    obtain hterminal | ⟨run', hrun', hnamed'⟩ := h row hrow hrelation
    · exact .inl hterminal
    · rcases List.mem_cons.mp hrun' with rfl | hrun'
      · exact absurd (hnamed.symm.trans hnamed') Bool.false_ne_true
      · exact .inr ⟨run', hrun', hnamed'⟩

end AreClosedBut

/-- What closes a step run closes the innermost one. -/
theorem follow_close {tenant id : String} {last : StepRunEnd} {a : Except Failure Unit} {opened opened' : List OpenRun}
    (h : Made.follow opened ⟨.updateStepRun tenant id last, a⟩ = some opened') : ∃ run, opened = run :: opened' ∧ run.id = id := by
  cases opened with
  | nil => cases h
  | cons run rest =>
    change (if run.id = id then some rest else none) = some opened' at h
    split at h
    · next hid =>
      cases h
      exact ⟨run, rfl, hid⟩
    · cases h

/-- **A row is that of an open step run, or closed**, if all records are made. -/
theorem Ledger.areClosedBut {others rows : List Row} {calls : List Made} {opened : List OpenRun}
    (hrecorded : ∀ m ∈ calls, m.call.isAudit → ∃ a, m.outcome = .ok a) (h : Ledger others (calls.filterMap Made.entry?) rows)
    (hopen : openRuns calls = some opened) : AreClosedBut opened rows := by
  induction calls using List.reverseRecOn generalizing rows opened with
  | nil =>
    obtain rfl := h.eq_nil
    exact List.forall_mem_nil _
  | append_singleton calls m ih =>
    obtain ⟨hbefore, hlast⟩ := List.forall_mem_append.mp hrecorded
    replace hlast := hlast m List.mem_cons_self
    unfold openRuns at hopen
    rw [List.foldlM_append] at hopen
    obtain ⟨mid, hmid, hopen⟩ := Option.bind_eq_some_iff.mp hopen
    simp only [List.foldlM_cons, List.foldlM_nil, bind_pure] at hopen
    rw [List.filterMap_append] at h
    obtain ⟨c, r⟩ := m
    cases c with
    | createExecution start =>
      obtain ⟨id, rfl⟩ : ∃ id : String, r = .ok id := hlast rfl
      cases hopen
      obtain ⟨rows', hledger, -, rfl⟩ := h.of_opens
      exact (ih hbefore hledger hmid).opens_execution
    | createStepRun start =>
      obtain ⟨id, rfl⟩ : ∃ id : String, r = .ok id := hlast rfl
      cases hopen
      obtain ⟨rows', hledger, -, rfl⟩ := h.of_opens
      exact (ih hbefore hledger hmid).opens_stepRun
    | updateExecution tenant id last =>
      obtain ⟨⟨⟩, rfl⟩ : ∃ u : Unit, r = .ok u := hlast rfl
      cases hopen
      obtain ⟨rows', _, hledger, -, -, -, rfl⟩ := h.of_changes
      exact (ih hbefore hledger hmid).changes_execution
    | updateStepRun tenant id last =>
      obtain ⟨⟨⟩, rfl⟩ : ∃ u : Unit, r = .ok u := hlast rfl
      obtain ⟨rows', _, hledger, -, -, -, rfl⟩ := h.of_changes
      obtain ⟨run, rfl, rfl⟩ := follow_close hopen
      exact (ih hbefore hledger hmid).changes_stepRun hledger.isWhole last
    | _ =>
      cases hopen
      rw [show List.filterMap Made.entry? [_] = [] from rfl, List.append_nil] at h
      exact ih hbefore h hmid

end Runbook
