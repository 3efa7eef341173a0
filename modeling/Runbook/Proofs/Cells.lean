import Mathlib.Data.List.Nodup
import Runbook.Proofs.Alike
import Runbook.Proofs.Row

/-!
# Cells of records

The fields of a record that are columns of its table go into these columns, and all others together into the column `attributes`.
What a statement leaves in a cell is told by the one field that it is given for it.

* `Database.isAttribute`, `Database.attributesOf`: the fields that are kept among the attributes.
* `Database.extra_of_split`, `Database.get?_of_split`: the two parts of a record.
* `Database.get?_recordFields`, `Database.get?_recordChanges`: the fields that a statement is given for a column.
* **`Database.insertRecord_ok`**, **`Database.updateRecord_ok`**: all that the two statements can do, if they succeed.
* `Database.cell?_of_insert`, `Database.cell?_of_change`: what they leave in the cell of a column.
-/

namespace Runbook

/-! ## Fields that are left out or added -/

namespace Fields

variable {fields : Fields} {name : String} {v : Value} {keep : String × Value → Bool}

theorem get?_filter_of_keep (hv : fields.get? name = some v) (hkeep : keep (name, v)) : get? (fields.filter keep) name = some v := by
  induction fields with
  | nil => cases hv
  | cons p fields ih =>
    obtain ⟨n, w⟩ := p
    by_cases hname : n = name
    · obtain rfl := hname
      obtain rfl : w = v := by simpa [get?] using hv
      rw [List.filter_cons_of_pos hkeep]
      simp [get?]
    · rw [get?_cons_of_ne hname] at hv
      rw [List.filter_cons]
      split
      · rw [get?_cons_of_ne hname]
        exact ih hv
      · exact ih hv

theorem get?_filter_eq_none (hv : fields.get? name = none) : get? (fields.filter keep) name = none :=
  get?_eq_none_iff.mpr fun p hp => get?_eq_none_iff.mp hv p (List.mem_filter.mp hp).1

theorem get?_append (fields others : Fields) (name : String) :
    get? (fields ++ others) name = (fields.get? name).or (others.get? name) := by
  unfold get?
  rw [List.find?_append]
  cases fields.find? (·.1 == name) <;> rfl

theorem get?_erase_of_ne {other : String} (h : name ≠ other) : (fields.erase other).get? name = fields.get? name := by
  cases hv : fields.get? name with
  | none => exact get?_filter_eq_none hv
  | some v => exact get?_filter_of_keep hv (bne_iff_ne.mpr h)

end Fields

namespace Database

/-! ## The parts of a record -/

/-- Whether a field of a record is kept among the attributes: it is no column of the table, or it is the column of the attributes
itself. -/
def isAttribute (t : Table) (name : String) : Bool := name == attributes || ((Relation.records t).column? name).isNone

/-- The fields of a record that are kept among the attributes. -/
def attributesOf (t : Table) (fields : Fields) : Fields := fields.filter fun p => isAttribute t p.1

variable {t : Table} {fields : Fields} {parts : Parts} {name : String} {c : Column} {row : Row} {tenant id : String} {v : Value}
  {db db' : Database} {r : Relation}

theorem isAttribute_of_column (hc : (Relation.records t).column? name = some c) : isAttribute t name = (name == attributes) := by
  rw [isAttribute, hc, Option.isNone_some, Bool.or_false]

theorem isAttribute_of_none (hc : (Relation.records t).column? name = none) : isAttribute t name := by
  rw [isAttribute, hc, Option.isNone_none, Bool.or_true]

/-- All that a record can be sorted into by its first field. -/
theorem split_cons (h : split t ((name, v) :: fields) = .ok parts) :
    ∃ rest, split t fields = .ok rest ∧
      ((isAttribute t name ∧ parts = ⟨rest.columns, (name, v) :: rest.extra⟩) ∨
        ∃ c w, (Relation.records t).column? name = some c ∧ name ≠ attributes ∧ readFor c v = .ok w ∧
          parts = ⟨(name, w) :: rest.columns, rest.extra⟩) := by
  unfold split at h
  split at h
  · next c hc =>
    split at h
    · next hname =>
      obtain ⟨rest, hrest, h⟩ := bind_eq_ok h
      cases h
      exact ⟨rest, hrest, .inl ⟨(isAttribute_of_column hc).trans (beq_iff_eq.mpr hname), rfl⟩⟩
    · next hname =>
      obtain ⟨w, hw, h⟩ := bind_eq_ok h
      obtain ⟨rest, hrest, h⟩ := bind_eq_ok h
      cases h
      exact ⟨rest, hrest, .inr ⟨c, w, hc, hname, hw, rfl⟩⟩
  · next hc =>
    obtain ⟨rest, hrest, h⟩ := bind_eq_ok h
    cases h
    exact ⟨rest, hrest, .inl ⟨isAttribute_of_none hc, rfl⟩⟩

/-- What is no column is kept as it is. -/
theorem extra_of_split (h : split t fields = .ok parts) : parts.extra = attributesOf t fields := by
  induction fields generalizing parts with
  | nil =>
    cases h
    rfl
  | cons p fields ih =>
    obtain ⟨rest, hrest, ⟨hname, rfl⟩ | ⟨c, w, hc, hname, -, rfl⟩⟩ := split_cons h
    · rw [attributesOf, List.filter_cons, hname, if_pos rfl]
      exact congrArg (p :: ·) (ih hrest)
    · have hout : isAttribute t p.1 = false := (isAttribute_of_column hc).trans (beq_false_of_ne hname)
      rw [attributesOf, List.filter_cons, hout, if_neg Bool.false_ne_true]
      exact (ih hrest :)

/-- What is a column is read for it. -/
theorem get?_of_split (hc : (Relation.records t).column? name = some c) (hname : name ≠ attributes)
    (h : split t fields = .ok parts) : match fields.get? name with
      | some v => ∃ w, readFor c v = .ok w ∧ parts.columns.get? name = some w
      | none => parts.columns.get? name = none := by
  have hout : isAttribute t name = false := (isAttribute_of_column hc).trans (beq_false_of_ne hname)
  induction fields generalizing parts with
  | nil =>
    cases h
    rfl
  | cons p fields ih =>
    obtain ⟨n, v⟩ := p
    obtain ⟨rest, hrest, ⟨hn, rfl⟩ | ⟨c', w, hc', hn, hw, rfl⟩⟩ := split_cons h
    · have hne : n ≠ name := by
        rintro rfl
        exact Bool.false_ne_true (hout.symm.trans hn)
      rw [Fields.get?_cons_of_ne hne]
      exact (ih hrest :)
    · by_cases hne : n = name
      · obtain rfl := hne
        obtain rfl := Option.some.inj (hc.symm.trans hc')
        have hv : Fields.get? ((n, v) :: fields) n = some v := by simp [Fields.get?]
        rw [hv]
        exact ⟨w, hw, by simp [Fields.get?]⟩
      · rw [Fields.get?_cons_of_ne hne, Fields.get?_cons_of_ne hne]
        exact ih hrest

/-- What is not given is not among the columns. -/
theorem get?_of_split_eq_none (h : split t fields = .ok parts) (hv : fields.get? name = none) : parts.columns.get? name = none := by
  induction fields generalizing parts with
  | nil =>
    cases h
    rfl
  | cons p fields ih =>
    obtain ⟨hne, hfields⟩ := List.forall_mem_cons.mp (Fields.get?_eq_none_iff.mp hv)
    have hrest := Fields.get?_eq_none_iff.mpr hfields
    obtain ⟨rest, hsplit, ⟨-, rfl⟩ | ⟨c, w, -, -, -, rfl⟩⟩ := split_cons h
    · exact (ih hsplit hrest :)
    · exact (Fields.get?_cons_of_ne hne).trans (ih hsplit hrest)

/-- The attributes are no column of their own. -/
theorem get?_attributes_of_split (h : split t fields = .ok parts) : parts.columns.get? attributes = none := by
  induction fields generalizing parts with
  | nil =>
    cases h
    rfl
  | cons p fields ih =>
    obtain ⟨rest, hrest, ⟨-, rfl⟩ | ⟨c, w, -, hname, -, rfl⟩⟩ := split_cons h
    · exact (ih hrest :)
    · exact (Fields.get?_cons_of_ne hname).trans (ih hrest)

/-! ## The fields of a statement -/

theorem get?_recordFields (hname : name ≠ "tenant_id") (hattributes : name ≠ attributes) :
    (recordFields tenant parts).get? name = parts.columns.get? name := by
  unfold recordFields
  dsimp only
  split
  · exact Fields.get?_set_of_ne hname.symm
  · rw [Fields.get?_set_of_ne hattributes.symm]
    exact Fields.get?_set_of_ne hname.symm

theorem get?_attributes_recordFields (tenant : String) (h : parts.columns.get? attributes = none) :
    (recordFields tenant parts).get? attributes = if parts.extra.isEmpty then none else some parts.extra.toValue := by
  unfold recordFields
  dsimp only
  split
  · rw [Fields.get?_set_of_ne (by decide), h]
  · exact Fields.get?_set_self

/-- A column is given another value if it is not equal to the one that it holds. -/
theorem differs_iff : differs row name v ↔ ∀ w, row.cell? name = some (.value w) → v.equal w ≠ .ok true := by
  unfold differs
  cases hcell : row.cell? name with
  | none => exact ⟨fun _ w hw => (Option.some_ne_none _ hw.symm).elim, fun _ => rfl⟩
  | some cell =>
    cases cell with
    | now => exact ⟨fun _ w hw => Cell.noConfusion (Option.some.inj hw), fun _ => rfl⟩
    | value w =>
      dsimp only [Option.bind_some, Cell.value?]
      rw [Bool.not_eq_true', ← Bool.not_eq_true]
      refine (not_congr Value.matches_iff).trans ?_
      constructor
      · rintro hunlike _ ⟨⟩
        exact hunlike
      · exact fun h => h w rfl

theorem get?_columns_of_ne (hid : name ≠ "id") (howner : name ≠ "tenant_id") :
    ((parts.columns.erase "tenant_id").erase "id").get? name = parts.columns.get? name :=
  (Fields.get?_erase_of_ne hid).trans (Fields.get?_erase_of_ne howner)

/-- A column that is given another value than it holds is changed. -/
theorem get?_recordChanges (hid : name ≠ "id") (howner : name ≠ "tenant_id") (hv : parts.columns.get? name = some v)
    (hdiffers : differs row name v) : (recordChanges row parts).get? name = some v := by
  refine Fields.get?_filter_of_keep ?_ hdiffers
  rw [← get?_columns_of_ne hid howner] at hv
  split
  · exact hv
  · rw [Fields.get?_append, hv, Option.some_or]

/-- A column for which nothing is given stays. -/
theorem get?_recordChanges_eq_none (hattributes : name ≠ attributes) (hv : parts.columns.get? name = none) :
    (recordChanges row parts).get? name = none := by
  have hcolumns : ((parts.columns.erase "tenant_id").erase "id").get? name = none :=
    Fields.get?_filter_eq_none (Fields.get?_filter_eq_none hv)
  refine Fields.get?_filter_eq_none ?_
  split
  · exact hcolumns
  · have hsingle : Fields.get? [(attributes, Value.dict (mergedAttributes row parts.extra))] name = none := by
      rw [Fields.get?_cons_of_ne hattributes.symm]
      rfl
    rw [Fields.get?_append, hcolumns, Option.none_or, hsingle]

/-- The attributes are changed if there are any that make them different. -/
theorem get?_attributes_recordChanges (h : parts.columns.get? attributes = none) :
    (recordChanges row parts).get? attributes =
      if !parts.extra.isEmpty && differs row attributes (.dict (mergedAttributes row parts.extra))
      then some (.dict (mergedAttributes row parts.extra)) else none := by
  have hcolumns : ((parts.columns.erase "tenant_id").erase "id").get? attributes = none :=
    Fields.get?_filter_eq_none (Fields.get?_filter_eq_none h)
  unfold recordChanges
  dsimp only
  cases parts.extra.isEmpty with
  | true => exact Fields.get?_filter_eq_none hcolumns
  | false =>
    have hnone : Fields.get? (((parts.columns.erase "tenant_id").erase "id").filter fun p => differs row p.1 p.2) attributes = none :=
      Fields.get?_filter_eq_none hcolumns
    rw [if_neg Bool.false_ne_true, List.filter_append, Fields.get?_append, hnone, Option.none_or, List.filter_singleton]
    cases differs row attributes (.dict (mergedAttributes row parts.extra)) <;> rfl

/-! ## What statements can do -/

/-- A record that is added is one row more. -/
theorem insertRecord_cases {result : Except Failure Unit} (h : db.insertRecord t tenant fields = (result, db')) :
    (∃ f, result = .error f ∧ db'.rows = db.rows) ∨ result = .ok () ∧ ∃ parts fresh slots, split t fields = .ok parts ∧
      Slots.prepare ((Relation.records t).columns.map fun c => (c, slot fresh (recordFields tenant parts) c)) = .ok slots ∧
      db'.rows = db.rows ++ [⟨.records t, slots.cells⟩] ∧ checkRequired (.records t) slots = .ok () ∧
      db.checkUnique (.records t) ⟨.records t, slots.cells⟩ = .ok () := by
  unfold insertRecord at h
  split at h
  · next parts hsplit =>
    obtain hfail | ⟨hok, fresh, slots, hslots⟩ := insert_cases h
    · exact .inl hfail
    · exact .inr ⟨hok, parts, fresh, slots, hsplit, hslots⟩
  · cases h
    exact .inl ⟨_, rfl, rfl⟩

theorem change_ok {selects : Row → Bool} (h : db.change r selects fields = .ok db') :
    ∃ slots, (changedSlots r fields).prepare = .ok slots ∧
      db'.rows = db.rows.map fun row => if row.relation == r && selects row then row.setAll slots.cells else row := by
  obtain ⟨slots, hprepare, h⟩ := bind_eq_ok h
  dsimp only at h
  split at h
  · obtain ⟨-, -, h⟩ := bind_eq_ok h
    cases h
    exact ⟨slots, hprepare, rfl⟩
  · cases h
    exact ⟨slots, hprepare, rfl⟩

/-- A record that is changed is the first that is live; what is set in it is set in all that are. -/
theorem updateRecord_cases {found : Bool} (h : db.updateRecord t tenant id fields = .ok (found, db')) :
    ∃ parts, split t fields = .ok parts ∧
      ((found = false ∧ (db.select (.records t) (isLive tenant id)).head? = none ∧ db' = db) ∨
        found = true ∧ ∃ row, (db.select (.records t) (isLive tenant id)).head? = some row ∧
          ((recordChanges row parts = [] ∧ db' = db) ∨
            ∃ slots, (changedSlots (.records t) (recordChanges row parts)).prepare = .ok slots ∧ db'.rows = db.rows.map fun row =>
              if row.relation == .records t && isLive tenant id row then row.setAll slots.cells else row)) := by
  obtain ⟨parts, hsplit, h⟩ := bind_eq_ok h
  refine ⟨parts, hsplit, ?_⟩
  split at h
  · next hnone =>
    cases h
    exact .inl ⟨rfl, hnone, rfl⟩
  · next row hrow =>
    dsimp only at h
    split at h
    · next hempty =>
      cases h
      exact .inr ⟨rfl, row, hrow, .inl ⟨List.isEmpty_iff.mp hempty, rfl⟩⟩
    · obtain ⟨db₁, hchange, h⟩ := bind_eq_ok h
      cases h
      obtain ⟨slots, hprepare, hrows⟩ := change_ok hchange
      exact .inr ⟨rfl, row, hrow, .inr ⟨slots, hprepare, hrows⟩⟩

/-! ## What stands in a cell -/

theorem names_nodup (r : Relation) : (r.columns.map Column.name).Nodup := by
  cases r with
  | records t => cases t <;> decide
  | _ => decide

theorem column?_eq_some : r.column? name = some c ↔ c ∈ r.columns ∧ c.name = name := by
  constructor
  · intro h
    have hfind : r.columns.find? (·.name == name) = some c := h
    have hname := List.find?_some hfind
    exact ⟨List.mem_of_find?_eq_some hfind, eq_of_beq hname⟩
  · rintro ⟨hc, rfl⟩
    unfold Relation.column?
    cases hfind : r.columns.find? (·.name == c.name) with
    | none => exact absurd (beq_self_eq_true c.name) (List.find?_eq_none.mp hfind c hc)
    | some c' =>
      have hname := List.find?_some hfind
      have hmem := List.mem_of_find?_eq_some hfind
      exact congrArg some (List.inj_on_of_nodup_map (names_nodup r) hmem hc (eq_of_beq hname))

/-- The cell of a column of a new row. -/
theorem cell?_of_insert {fresh : String} {slots : Slots} {cell : Cell}
    (h : Slots.prepare (r.columns.map fun c => (c, slot fresh fields c)) = .ok slots) (hc : r.column? name = some c)
    (hcell : ∀ s, (slot fresh fields c).convert c.kind = .ok s → s.cell c.kind = cell) :
    (⟨r, slots.cells⟩ : Row).cell? name = some cell := by
  obtain ⟨hmem, hname⟩ := column?_eq_some.mp hc
  refine Slots.lookup_of_prepare h ⟨_, List.mem_map_of_mem hmem, hname⟩ fun p hp hp' s hs => ?_
  obtain ⟨c', hc', rfl⟩ := List.mem_map.mp hp
  obtain rfl : c' = c := Option.some.inj ((column?_eq_some.mpr ⟨hc', hp'⟩).symm.trans hc)
  exact hcell s hs

/-- The cell of a column that is changed. -/
theorem lookup_of_change {slots : Slots} {cell : Cell} (h : (changedSlots r fields).prepare = .ok slots)
    (hc : r.column? name = some c) (hv : fields.get? name = some v)
    (hcell : ∀ s, (Slot.given v).convert c.kind = .ok s → s.cell c.kind = cell) : slots.cells.lookup name = some cell := by
  obtain ⟨hmem, rfl⟩ := column?_eq_some.mp hc
  refine Slots.lookup_of_prepare h ⟨(c, .given v), List.mem_filterMap.mpr ⟨c, hmem, by rw [hv]⟩, rfl⟩ fun p hp hp' s hs => ?_
  obtain ⟨c', hc', heq⟩ := List.mem_filterMap.mp hp
  split at heq
  · next w hw =>
    cases heq
    obtain rfl : c' = c := Option.some.inj ((column?_eq_some.mpr ⟨hc', hp'⟩).symm.trans hc)
    obtain rfl := Option.some.inj (hw.symm.trans hv)
    exact hcell s hs
  · next hnone =>
    split at heq
    · cases heq
      dsimp only at hp'
      rw [hp', hv] at hnone
      cases hnone
    · cases heq

end Database

end Runbook
