import Mathlib.Data.List.Basic
import Runbook.Engine.Call
import Runbook.Proofs.Form
import Runbook.Proofs.Within

/-!
# Rows of records

A table takes a value into a column if it can give it back as it was, but for the offset of a moment and the mark of a NaN. A
record whose fields the table takes is a row of these very fields, and a change of such fields sets them and nothing else.

* `Column.Kind.Holds`: what a column gives back as it was; `Relation.Takes`: the fields that a table takes as a new row.
* `Relation.row`, `Relation.cells`: the row that fields make, and what a change of fields sets.
* **`Database.create_ok`**, **`Database.update_ok`**: what the two statements of the audit store write.
* `ExecutionStart.takes`, `StepRunStart.takes`, `ExecutionEnd.holds`, `StepRunEnd.holds`: the audit records are such fields.
-/

namespace Runbook

/-! ## What columns give back -/

/-- A column of this kind gives the value back as what is stored of it. -/
def Column.Kind.Holds (k : Column.Kind) (v : Value) : Prop := ∃ w, k.convert v = .ok w ∧ k.keep w = v.stored

/-- What a new row has in a column for which this is given. -/
def Column.cell (c : Column) : Option Value → Cell
  | some v => .value v.stored
  | none => match c.default with
    | .now => .now
    | _ => .value .null

/-- What is given for a column is kept in it, and what is not given is the time or nothing. -/
def Column.Takes (c : Column) : Option Value → Prop
  | some v => c.kind.Holds v ∧ (v = .null → c.default = .nothing)
  | none => match c.default with
    | .now | .nothing => True
    | _ => False

/-- Whether a row is that of a table under an id. -/
def Row.isNamed (row : Row) (r : Relation) (id : String) : Bool := row.relation == r && row.holds "id" id

theorem Value.eq_of_isStr {v : Value} {text : String} (h : v.isStr text) : v = .str text := by
  cases v with
  | str s => exact congrArg Value.str (eq_of_beq h)
  | _ => cases h

/-- A column holds one text. -/
theorem Row.eq_of_holds {row : Row} {name text text' : String} (h : row.holds name text) (h' : row.holds name text') : text = text' :=
  Value.str.inj ((Value.eq_of_isStr h).symm.trans (Value.eq_of_isStr h'))

theorem Row.Kept.isNamed {tenant : String} {row row' : Row} (h : row.Kept tenant row') (r : Relation) (id : String) :
    row'.isNamed r id = row.isNamed r id := by
  unfold Row.isNamed Row.holds Row.value
  rw [h.relation, h.id]

namespace Relation

/-- The row of these fields. -/
def row (r : Relation) (fields : Fields) : Row := ⟨r, r.columns.map fun c => (c.name, c.cell (fields.get? c.name))⟩

/-- What a change of these fields sets. The time of the change is noted. -/
def cells (r : Relation) (fields : Fields) : List (String × Cell) :=
  r.columns.filterMap fun c => match fields.get? c.name with
    | some v => some (c.name, .value v.stored)
    | none => if c.name = "updated_at" then some (c.name, .now) else none

/-- A table takes these fields as a new row. -/
def Takes (r : Relation) (fields : Fields) : Prop := ∀ c ∈ r.columns, c.Takes (fields.get? c.name)

/-- A table takes these fields as a change. -/
def Holds (r : Relation) (fields : Fields) : Prop := ∀ c ∈ r.columns, ∀ v, fields.get? c.name = some v → c.kind.Holds v

variable {r : Relation} {fields : Fields} {c : Column} {name : String}

theorem lookup_map_columns (columns : List Column) (f : Column → Cell) :
    (columns.map fun c => (c.name, f c)).lookup name = (columns.find? (·.name == name)).map f := by
  induction columns with
  | nil => rfl
  | cons c columns ih =>
    rw [List.map_cons, List.lookup_cons, List.find?_cons, BEq.comm, ih]
    cases c.name == name <;> rfl

theorem cell?_row (hc : r.column? name = some c) : (r.row fields).cell? name = some (c.cell (fields.get? name)) := by
  have hfind : r.columns.find? (·.name == name) = some c := hc
  have hname := List.find?_some hfind
  obtain rfl := eq_of_beq hname
  show (r.columns.map fun c => (c.name, c.cell (fields.get? c.name))).lookup c.name = _
  rw [lookup_map_columns, hfind]
  rfl

theorem isSome_cell?_row (hc : (r.column? name).isSome) : ((r.row fields).cell? name).isSome := by
  obtain ⟨c, hc⟩ := Option.isSome_iff_exists.mp hc
  rw [cell?_row hc]
  rfl

/-- What is given for a column is set by a change. -/
theorem lookup_cells {v : Value} (hc : (r.column? name).isSome) (hv : fields.get? name = some v) :
    (r.cells fields).lookup name = some (.value v.stored) := by
  unfold Relation.column? at hc
  unfold cells
  generalize r.columns = columns at hc ⊢
  induction columns with
  | nil => cases hc
  | cons c columns ih =>
    rw [List.find?_cons] at hc
    rw [List.filterMap_cons]
    by_cases hname : c.name = name
    · rw [hname, hv]
      exact List.lookup_cons_self
    · rw [beq_false_of_ne hname] at hc
      have hne : (name == c.name) = false := beq_false_of_ne (Ne.symm hname)
      split
      · exact ih hc
      · next p hp =>
        have hp : p.1 = c.name := by
          split at hp
          · cases hp
            rfl
          · split at hp <;> cases hp
            rfl
        obtain ⟨n, cell⟩ := p
        obtain rfl : n = c.name := hp
        rw [List.lookup_cons, hne]
        exact ih hc

/-- What is not given is left as it is. -/
theorem lookup_cells_eq_none (hv : fields.get? name = none) (hname : name ≠ "updated_at") :
    (r.cells fields).lookup name = none := by
  refine List.lookup_eq_none_iff.mpr fun p hp => bne_iff_ne.mpr ?_
  rintro rfl
  obtain ⟨c, -, hc⟩ := List.mem_filterMap.mp hp
  split at hc
  · next hsome =>
    cases hc
    rw [hsome] at hv
    cases hv
  · split at hc <;> cases hc
    exact hname ‹_›

theorem value_row {v : Value} (hc : (r.column? name).isSome) (hv : fields.get? name = some v) :
    (r.row fields).value name = v.stored := by
  obtain ⟨c, hc⟩ := Option.isSome_iff_exists.mp hc
  unfold Row.value
  rw [cell?_row hc, hv]
  rfl

end Relation

/-! ## What statements write -/

namespace Slots

theorem cells_of_convert {slots slots' : Slots} {k : Column × Slot → Cell} (h : convert slots = .ok slots')
    (hk : ∀ p ∈ slots, ∀ s', p.2.convert p.1.kind = .ok s' → s'.cell p.1.kind = k p) :
    slots'.cells = slots.map fun p => (p.1.name, k p) := by
  induction slots generalizing slots' with
  | nil =>
    cases h
    rfl
  | cons p slots ih =>
    obtain ⟨c, s⟩ := p
    obtain ⟨s', rest, hs', hrest, rfl⟩ := convert_cons h
    obtain ⟨hfirst, hlater⟩ := List.forall_mem_cons.mp hk
    have hcells : rest.cells = slots.map fun p => (p.1.name, k p) := ih hrest hlater
    show (c.name, s'.cell c.kind) :: rest.cells = _
    rw [hfirst s' hs', hcells]
    rfl

end Slots

theorem Slot.cell_of_holds {k : Column.Kind} {v : Value} {s : Slot} (hv : k.Holds v) (h : (Slot.given v).convert k = .ok s) :
    s.cell k = .value v.stored := by
  obtain ⟨w, hw, hkeep⟩ := hv
  obtain ⟨w', hw', rfl⟩ := map_eq_ok h
  obtain rfl := Except.ok.inj (hw.symm.trans hw')
  exact congrArg Cell.value hkeep

theorem Column.Kind.holds_null (k : Column.Kind) : k.Holds .null := by
  cases k <;> exact ⟨.null, rfl, rfl⟩

namespace Database

variable {db db' : Database} {r : Relation} {fields : Fields} {c : Column} {tenant id fresh : String} {v : Value}

theorem slot_of_some (hv : fields.get? c.name = some v) (h : v = .null → c.kind = .json) : slot fresh fields c = .given v := by
  have hgiven : given? fields c = some v := by
    unfold given?
    rw [hv]
    cases v <;> first | rfl | exact if_pos (h rfl)
  unfold slot
  rw [hgiven]

theorem slot_of_null (hv : fields.get? c.name = some .null) (hc : c.kind ≠ .json) (hd : c.default = .nothing) :
    slot fresh fields c = .given .null := by
  have hgiven : given? fields c = none := by
    unfold given?
    rw [hv]
    exact if_neg hc
  unfold slot
  rw [hgiven, hd]
  exact if_neg hc

theorem slot_of_none (hv : fields.get? c.name = none) :
    slot fresh fields c = match c.default with
      | .now => .now
      | .freshId => .given (.str fresh)
      | .value v => .given v
      | .nothing => if c.kind = .json then .absent else .given .null := by
  have hgiven : given? fields c = none := by
    unfold given?
    rw [hv]
  unfold slot
  rw [hgiven]
  cases c.default <;> rfl

/-- What is given for a column that takes it stands in it afterwards. -/
theorem cell_of_slot {s : Slot} (hc : c.Takes (fields.get? c.name)) (h : (slot fresh fields c).convert c.kind = .ok s) :
    s.cell c.kind = c.cell (fields.get? c.name) := by
  cases hv : fields.get? c.name with
  | some v =>
    rw [hv] at hc
    obtain ⟨hholds, hnull⟩ := hc
    by_cases hgiven : v = .null → c.kind = .json
    · rw [slot_of_some hv hgiven] at h
      exact Slot.cell_of_holds hholds h
    · obtain ⟨rfl, hjson⟩ := Classical.not_imp.mp hgiven
      rw [slot_of_null hv hjson (hnull rfl)] at h
      exact Slot.cell_of_holds hholds h
  | none =>
    rw [hv] at hc
    rw [slot_of_none hv] at h
    unfold Column.Takes at hc
    unfold Column.cell
    cases hdefault : c.default with
    | now =>
      rw [hdefault] at h
      cases h
      rfl
    | nothing =>
      rw [hdefault] at h
      dsimp only at h
      split at h
      · cases h
        rfl
      · exact Slot.cell_of_holds c.kind.holds_null h
    | freshId | value =>
      rw [hdefault] at hc
      exact hc.elim

/-- The row that is inserted is that of the fields. -/
theorem row_of_prepare {slots : Slots} (hfields : r.Takes fields)
    (h : Slots.prepare (r.columns.map fun c => (c, slot fresh fields c)) = .ok slots) :
    (⟨r, slots.cells⟩ : Row) = r.row fields := by
  have hcells : slots.cells = (r.columns.map fun c => (c, slot fresh fields c)).map fun p =>
      (p.1.name, p.1.cell (fields.get? p.1.name)) := by
    refine Slots.cells_of_convert (Slots.convert_of_prepare h) fun p hp s' hs' => ?_
    obtain ⟨c, hc, rfl⟩ := List.mem_map.mp hp
    exact cell_of_slot (hfields c hc) hs'
  rw [hcells, List.map_map]
  rfl

theorem insertSlots_ok {slots : Slots} (h : db.insertSlots r slots = .ok db') : ∃ slots', slots.prepare = .ok slots' ∧
    db'.rows = db.rows ++ [⟨r, slots'.cells⟩] ∧ checkRequired r slots' = .ok () ∧ db.checkUnique r ⟨r, slots'.cells⟩ = .ok () := by
  obtain ⟨slots', hprepare, h⟩ := bind_eq_ok h
  obtain ⟨⟨⟩, hrequired, h⟩ := bind_eq_ok h
  obtain ⟨⟨⟩, hunique, h⟩ := bind_eq_ok h
  cases h
  exact ⟨slots', hprepare, rfl, hrequired, hunique⟩

theorem orUnchanged_eq {x : Except Failure Database} {result : Except Failure Unit} (h : db.orUnchanged x = (result, db')) :
    (∃ f, result = .error f ∧ db' = db) ∨ result = .ok () ∧ x = .ok db' := by
  cases x with
  | ok db₁ =>
    cases h
    exact .inr ⟨rfl, rfl⟩
  | error f =>
    cases h
    exact .inl ⟨f, rfl, rfl⟩

/-- An insertion adds a row if it succeeds, and nothing else. -/
theorem insert_cases {result : Except Failure Unit} (h : db.insert r fields = (result, db')) :
    (∃ f, result = .error f ∧ db'.rows = db.rows) ∨ result = .ok () ∧ ∃ fresh slots,
      Slots.prepare (r.columns.map fun c => (c, slot fresh fields c)) = .ok slots ∧
      db'.rows = db.rows ++ [⟨r, slots.cells⟩] ∧ checkRequired r slots = .ok () ∧ db.checkUnique r ⟨r, slots.cells⟩ = .ok () := by
  unfold insert at h
  dsimp only at h
  split at h
  · obtain ⟨f, hf, rfl⟩ | ⟨hok, hinsert⟩ := orUnchanged_eq h
    · exact .inl ⟨f, hf, rfl⟩
    · obtain ⟨slots, hslots⟩ := insertSlots_ok hinsert
      exact .inr ⟨hok, _, slots, hslots⟩
  · obtain ⟨f, hf, rfl⟩ | ⟨hok, hinsert⟩ := orUnchanged_eq h
    · exact .inl ⟨f, hf, rfl⟩
    · obtain ⟨slots, hslots⟩ := insertSlots_ok hinsert
      exact .inr ⟨hok, _, slots, hslots⟩

/-- If the table takes the fields, it is the row of the fields. -/
theorem insert_eq {result : Except Failure Unit} (hfields : r.Takes fields) (h : db.insert r fields = (result, db')) :
    (∃ f, result = .error f ∧ db'.rows = db.rows) ∨
      result = .ok () ∧ db'.rows = db.rows ++ [r.row fields] ∧ db.checkUnique r (r.row fields) = .ok () := by
  obtain hfail | ⟨hok, fresh, slots, hprepare, hrows, -, hunique⟩ := insert_cases h
  · exact .inl hfail
  · rw [row_of_prepare hfields hprepare] at hrows hunique
    exact .inr ⟨hok, hrows, hunique⟩

/-- Every table has a column of ids. -/
theorem exists_id (r : Relation) : (r.column? "id").isSome := by
  cases r with
  | records t => cases t <;> decide
  | _ => decide

theorem not_isNamed_of_checkUnique {new : Row} (hid : new.value "id" = .str id) (h : db.checkUnique r new = .ok ()) :
    ∀ row ∈ db.rows, row.isNamed r id = false := by
  unfold checkUnique at h
  rw [hid] at h
  change (if (db.rows.any fun other => other.relation == r && other.holds "id" id) then _ else _) = _ at h
  split at h
  · cases h
  · next hany =>
    intro row hrow
    exact Bool.eq_false_iff.mpr fun hnamed => hany (List.any_eq_true.mpr ⟨row, hrow, hnamed⟩)

/-- **A record that is opened** is a row of its fields under an id that no other row of the table has. -/
theorem create_ok (hfields : ∀ id, r.Takes (("id", .str id) :: fields)) (h : db.create r fields = (.ok id, db')) :
    db'.rows = db.rows ++ [r.row (("id", .str id) :: fields)] ∧ ∀ row ∈ db.rows, row.isNamed r id = false := by
  unfold create at h
  dsimp only at h
  split at h
  · cases h
  · generalize hinsert : db.freshId.2.insert r (("id", .str db.freshId.1) :: fields) = p at h
    obtain ⟨result, db₁⟩ := p
    obtain ⟨f, rfl, -⟩ | ⟨rfl, hrows, hunique⟩ := insert_eq (hfields _) hinsert
    · cases h
    · cases h
      have hid : Fields.get? (("id", .str db.freshId.1) :: fields) "id" = some (.str db.freshId.1) := rfl
      have hfresh := not_isNamed_of_checkUnique (Relation.value_row (exists_id r) hid) hunique
      exact ⟨hrows, hfresh⟩

theorem create_error {f : Failure} (hfields : ∀ id, r.Takes (("id", .str id) :: fields))
    (h : db.create r fields = (.error f, db')) : db'.rows = db.rows := by
  unfold create at h
  dsimp only at h
  split at h
  · cases h
    rfl
  · generalize hinsert : db.freshId.2.insert r (("id", .str db.freshId.1) :: fields) = p at h
    obtain ⟨result, db₁⟩ := p
    obtain ⟨f, rfl, hrows⟩ | ⟨rfl, -⟩ := insert_eq (hfields _) hinsert
    · cases h
      exact hrows
    · cases h

theorem cells_of_prepare {slots : Slots} (hfields : r.Holds fields) (h : (changedSlots r fields).prepare = .ok slots) :
    slots.cells = r.cells fields := by
  have hcells : slots.cells = (changedSlots r fields).map fun p =>
      (p.1.name, match fields.get? p.1.name with
        | some v => Cell.value v.stored
        | none => .now) := by
    refine Slots.cells_of_convert (Slots.convert_of_prepare h) fun p hp s' hs' => ?_
    obtain ⟨c, hc, hp⟩ := List.mem_filterMap.mp hp
    split at hp
    · next v hv =>
      cases hp
      dsimp only at hs' ⊢
      rw [hv]
      exact Slot.cell_of_holds (hfields c hc v hv) hs'
    · next hv =>
      split at hp <;> cases hp
      dsimp only at hs' ⊢
      rw [hv]
      cases hs'
      rfl
  rw [hcells, changedSlots, List.map_filterMap]
  refine List.filterMap_congr fun c hc => ?_
  cases hv : fields.get? c.name with
  | some v => simp only [Option.map_some, hv]
  | none =>
    dsimp only
    split
    · simp only [Option.map_some, hv]
    · rfl

/-- **A record that is changed** has the given fields in their columns; nothing else is changed, and no other row. -/
theorem update_ok (hfields : r.Holds fields) (h : db.update r tenant id fields = .ok db') :
    db'.rows = db.rows.map fun row => if row.relation == r && row.isOf tenant id then row.setAll (r.cells fields) else row := by
  unfold update at h
  split at h
  · obtain ⟨slots, hprepare, h⟩ := bind_eq_ok h
    rw [← cells_of_prepare hfields hprepare]
    dsimp only at h
    split at h
    · obtain ⟨-, -, h⟩ := bind_eq_ok h
      cases h
      rfl
    · cases h
      rfl
  · cases h

end Database

/-! ## The audit records -/

theorem Column.Kind.holds_json {v : Value} (hv : v.jsonForm = .ok v.stored) : Column.Kind.json.Holds v := by
  refine ⟨v.stored, ?_, rfl⟩
  show v.jsonForm.mapError _ = _
  rw [hv]
  rfl

/-- The start of an execution is kept as it is, if JSON gives its values back. -/
theorem ExecutionStart.takes (e : ExecutionStart) (hinput : e.input.jsonForm = .ok e.input.stored)
    (hvariables : e.startVariables.jsonForm = .ok e.startVariables.stored) (id : String) :
    Relation.executions.Takes (("id", .str id) :: e.fields) := by
  intro c hc
  simp only [Relation.columns, Relation.owner, Relation.base, List.cons_append, List.nil_append, List.mem_cons,
    List.not_mem_nil, or_false] at hc
  rcases hc with rfl | rfl | rfl | rfl | rfl | rfl | rfl | rfl | rfl | rfl | rfl | rfl | rfl | rfl
  any_goals trivial
  any_goals exact ⟨⟨_, rfl, rfl⟩, nofun⟩
  · exact ⟨Column.Kind.holds_json hinput, fun _ => rfl⟩
  · exact ⟨Column.Kind.holds_json hvariables, fun _ => rfl⟩

/-- So is the start of a step run. -/
theorem StepRunStart.takes (s : StepRunStart) (id : String) : Relation.stepRuns.Takes (("id", .str id) :: s.fields) := by
  intro c hc
  simp only [Relation.columns, Relation.owner, Relation.base, List.cons_append, List.nil_append, List.mem_cons,
    List.not_mem_nil, or_false] at hc
  rcases hc with rfl | rfl | rfl | rfl | rfl | rfl | rfl | rfl | rfl | rfl | rfl | rfl | rfl | rfl | rfl
  any_goals trivial
  any_goals exact ⟨⟨_, rfl, rfl⟩, nofun⟩
  · show Column.Takes _ (some (Value.ofText? s.path.parentId?))
    cases s.path.parentId? <;> exact ⟨⟨_, rfl, rfl⟩, fun _ => rfl⟩
  · unfold StepRunStart.fields
    cases s.path.iteration? <;> exact ⟨⟨_, rfl, rfl⟩, fun _ => rfl⟩

/-- The end of an execution is kept as it is, if JSON gives its variables back. -/
theorem ExecutionEnd.holds (e : ExecutionEnd) (hfinal : e.finalVariables.jsonForm = .ok e.finalVariables.stored) :
    Relation.executions.Holds e.fields := by
  obtain ⟨outcome, completedAt, milliseconds, final⟩ := e
  intro c hc v hv
  simp only [Relation.columns, Relation.owner, Relation.base, List.cons_append, List.nil_append, List.mem_cons,
    List.not_mem_nil, or_false] at hc
  cases outcome
  all_goals
    rcases hc with rfl | rfl | rfl | rfl | rfl | rfl | rfl | rfl | rfl | rfl | rfl | rfl | rfl | rfl <;> cases hv
    any_goals exact ⟨_, rfl, rfl⟩
    exact Column.Kind.holds_json hfinal

/-- So is the end of a step run. -/
theorem StepRunEnd.holds (s : StepRunEnd) : Relation.stepRuns.Holds s.fields := by
  obtain ⟨outcome, completedAt, milliseconds⟩ := s
  intro c hc v hv
  simp only [Relation.columns, Relation.owner, Relation.base, List.cons_append, List.nil_append, List.mem_cons,
    List.not_mem_nil, or_false] at hc
  cases outcome
  all_goals
    rcases hc with rfl | rfl | rfl | rfl | rfl | rfl | rfl | rfl | rfl | rfl | rfl | rfl | rfl | rfl | rfl <;> cases hv
    all_goals exact ⟨_, rfl, rfl⟩

end Runbook
