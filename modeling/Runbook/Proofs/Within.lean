import Runbook.Database.Audit
import Runbook.Database.Records
import Runbook.Proofs.Result

/-!
# Writes within a tenant

Every statement names the tenant that it is made for. What it adds belongs to the tenant, and what it changes are rows of the
tenant, of which it touches neither the id nor the tenant. All other rows stay as they are, whatever the statement is given for
its columns.

* `Row.Kept`, `Database.Within`: what a tenant may do to a row, and to the database.
* **`Database.insert_within`**, **`Database.change_within`**: the two ways in which rows are written.
* `Database.create_within`, `Database.update_within`, `Database.record_within`, `Database.insertRecord_within`,
  `Database.updateRecord_within`: the statements of the stores.
-/

namespace Runbook

/-! ## What a tenant may do -/

/-- A row as a tenant may leave it: it is of the same table, with the same id and the same owner, and a row of another owner is
as it was. -/
structure Row.Kept (tenant : String) (row row' : Row) : Prop where
  relation : row'.relation = row.relation
  id : row'.cell? "id" = row.cell? "id"
  owner : row'.cell? "tenant_id" = row.cell? "tenant_id"
  foreign : row.holds "tenant_id" tenant = false → row' = row

namespace Row.Kept

variable {tenant : String} {row row' row'' : Row}

theorem refl (row : Row) : row.Kept tenant row := ⟨rfl, rfl, rfl, fun _ => rfl⟩

theorem holds (h : row.Kept tenant row') (owner : String) : row'.holds "tenant_id" owner = row.holds "tenant_id" owner := by
  unfold Row.holds Row.value
  rw [h.owner]

theorem trans (h : row.Kept tenant row') (h' : row'.Kept tenant row'') : row.Kept tenant row'' where
  relation := h'.relation.trans h.relation
  id := h'.id.trans h.id
  owner := h'.owner.trans h.owner
  foreign hrow := (h'.foreign ((h.holds tenant).trans hrow)).trans (h.foreign hrow)

end Row.Kept

namespace Database

/-- What a tenant may do to the database: the rows are kept in their places, and all rows that come after them are its own. -/
def Within (tenant : String) (db db' : Database) : Prop :=
  ∃ (keep : Row → Row) (added : List Row), db'.rows = db.rows.map keep ++ added ∧ (∀ row : Row, row.Kept tenant (keep row)) ∧
    ∀ row ∈ added, row.holds "tenant_id" tenant

variable {tenant : String} {db db' db'' : Database} {r : Relation} {fields : Fields}

theorem Within.of_rows (h : db'.rows = db.rows) : db.Within tenant db' :=
  ⟨id, [], by rw [h, List.map_id, List.append_nil], Row.Kept.refl, List.forall_mem_nil _⟩

theorem Within.refl (db : Database) : db.Within tenant db := .of_rows rfl

theorem Within.trans (h : db.Within tenant db') (h' : db'.Within tenant db'') : db.Within tenant db'' := by
  obtain ⟨keep, added, hrows, hkeep, hadded⟩ := h
  obtain ⟨keep', added', hrows', hkeep', hadded'⟩ := h'
  refine ⟨keep' ∘ keep, added.map keep' ++ added', ?_, fun row => (hkeep row).trans (hkeep' _), ?_⟩
  · rw [hrows', hrows, List.map_append, List.map_map, List.append_assoc]
  · refine List.forall_mem_append.mpr ⟨?_, hadded'⟩
    intro row' hrow'
    obtain ⟨row, hrow, rfl⟩ := List.mem_map.mp hrow'
    rw [(hkeep' row).holds]
    exact hadded row hrow

theorem Within.of_map {keep : Row → Row} (h : ∀ row : Row, row.Kept tenant (keep row)) :
    db.Within tenant { db with rows := db.rows.map keep } :=
  ⟨keep, [], (List.append_nil _).symm, h, List.forall_mem_nil _⟩

theorem within_freshId (db : Database) : db.Within tenant db.freshId.2 := .of_rows rfl

end Database

/-! ## Fields and slots -/

namespace Fields

variable {fields : Fields} {name name' : String} {v : Value}

theorem get?_eq_none_iff : fields.get? name = none ↔ ∀ p ∈ fields, p.1 ≠ name := by
  simp [get?]

theorem get?_cons_of_ne (h : name' ≠ name) : get? ((name', v) :: fields) name = fields.get? name := by
  simp [get?, h]

theorem get?_set_self : (fields.set name v).get? name = some v := by
  induction fields with
  | nil => simp [set, get?]
  | cons p fields ih =>
    obtain ⟨n, w⟩ := p
    by_cases hn : n = name
    · simp [set, get?, hn]
    · rw [set, if_neg (by simpa using hn), get?_cons_of_ne hn, ih]

theorem get?_set_of_ne (h : name' ≠ name) : (fields.set name' v).get? name = fields.get? name := by
  induction fields with
  | nil => simp [set, get?, h]
  | cons p fields ih =>
    obtain ⟨n, w⟩ := p
    by_cases hn : n = name'
    · obtain rfl := hn
      rw [set, if_pos (by simp), get?_cons_of_ne h, get?_cons_of_ne h]
    · rw [set, if_neg (by simpa using hn)]
      by_cases hname : n = name
      · simp [get?, hname]
      · rw [get?_cons_of_ne hname, get?_cons_of_ne hname, ih]

end Fields

namespace Slots

variable {slots slots' : Slots} {c : Column} {s s' : Slot}

theorem convert_cons (h : convert ((c, s) :: slots) = .ok slots') :
    ∃ s' rest, s.convert c.kind = .ok s' ∧ convert slots = .ok rest ∧ slots' = (c, s') :: rest := by
  unfold convert at h
  obtain ⟨s', hs, h⟩ := bind_eq_ok h
  obtain ⟨rest, hrest, h⟩ := bind_eq_ok h
  cases h
  exact ⟨s', rest, hs, hrest, rfl⟩

/-- A slot that was made fit is one of the same column. -/
theorem mem_of_convert (h : convert slots = .ok slots') (hs : (c, s') ∈ slots') :
    ∃ s, (c, s) ∈ slots ∧ s.convert c.kind = .ok s' := by
  induction slots generalizing slots' with
  | nil =>
    cases h
    cases hs
  | cons p slots ih =>
    obtain ⟨c₀, s₀⟩ := p
    obtain ⟨s₀', rest, hfirst, hrest, rfl⟩ := convert_cons h
    obtain hs | hs := List.mem_cons.mp hs
    · cases hs
      exact ⟨s₀, List.mem_cons_self, hfirst⟩
    · obtain ⟨s, hs, hconvert⟩ := ih hrest hs
      exact ⟨s, List.mem_cons_of_mem _ hs, hconvert⟩

theorem columns_of_convert (h : convert slots = .ok slots') : slots'.map Prod.fst = slots.map Prod.fst := by
  induction slots generalizing slots' with
  | nil =>
    cases h
    rfl
  | cons p slots ih =>
    obtain ⟨s₀', rest, -, hrest, rfl⟩ := convert_cons h
    exact congrArg (p.1 :: ·) (ih hrest)

theorem convert_of_prepare (h : prepare slots = .ok slots') : convert slots = .ok slots' := by
  obtain ⟨slots'', hconvert, h⟩ := bind_eq_ok h
  obtain ⟨-, -, h⟩ := bind_eq_ok h
  cases h
  exact hconvert

/-- A column that is named gets something. -/
theorem isSome_lookup_cells {name : String} (h : prepare slots = .ok slots') (hmem : ∃ p ∈ slots, p.1.name = name) :
    (slots'.cells.lookup name).isSome := by
  obtain ⟨p, hp, hname⟩ := hmem
  refine Option.isSome_iff_ne_none.mpr fun hnone => ?_
  have hcolumn : p.1 ∈ slots'.map Prod.fst := by
    rw [columns_of_convert (convert_of_prepare h)]
    exact List.mem_map_of_mem hp
  obtain ⟨p', hp', hcolumn⟩ := List.mem_map.mp hcolumn
  have hne := List.lookup_eq_none_iff.mp hnone (p'.1.name, p'.2.cell p'.1.kind) (List.mem_map_of_mem hp')
  rw [hcolumn, hname] at hne
  simp at hne

/-- What a column gets is what one of its slots comes to. -/
theorem exists_slot_of_lookup {name : String} {cell : Cell} (h : prepare slots = .ok slots') (hcell : slots'.cells.lookup name = some cell) :
    ∃ p ∈ slots, p.1.name = name ∧ ∃ s', p.2.convert p.1.kind = .ok s' ∧ s'.cell p.1.kind = cell := by
  obtain ⟨l₁, l₂, hcells, -⟩ := List.lookup_eq_some_iff.mp hcell
  have hmem : (name, cell) ∈ slots'.cells := hcells ▸ List.mem_append_right _ List.mem_cons_self
  obtain ⟨⟨c, s'⟩, hs', heq⟩ := List.mem_map.mp hmem
  cases heq
  obtain ⟨s, hs, hfit⟩ := mem_of_convert (convert_of_prepare h) hs'
  exact ⟨(c, s), hs, rfl, s', hfit, rfl⟩

/-- A column that is named gets what its slots come to, if they all come to the same. -/
theorem lookup_of_prepare {name : String} {cell : Cell} (h : prepare slots = .ok slots') (hmem : ∃ p ∈ slots, p.1.name = name)
    (hslot : ∀ p ∈ slots, p.1.name = name → ∀ s', p.2.convert p.1.kind = .ok s' → s'.cell p.1.kind = cell) :
    slots'.cells.lookup name = some cell := by
  obtain ⟨found, hfound⟩ := Option.isSome_iff_exists.mp (isSome_lookup_cells h hmem)
  obtain ⟨p, hp, hname, s', hfit, rfl⟩ := exists_slot_of_lookup h hfound
  rw [hfound, hslot p hp hname s' hfit]

/-- A value that is given for a column of texts stands in it afterwards, in the form of texts. -/
theorem lookup_cells {name : String} {v : Value} (h : prepare slots = .ok slots') (hmem : ∃ p ∈ slots, p.1.name = name)
    (hslot : ∀ p ∈ slots, p.1.name = name → p.1.kind = .text ∧ p.2 = .given v) :
    slots'.cells.lookup name = some (.value (Column.Kind.text.keep v)) := by
  refine lookup_of_prepare h hmem fun p hp hname s' hfit => ?_
  obtain ⟨hkind, hgiven⟩ := hslot p hp hname
  rw [hkind, hgiven] at hfit
  cases hfit
  rw [hkind]
  rfl

/-- A column that is not named gets nothing. -/
theorem lookup_cells_eq_none {name : String} (h : prepare slots = .ok slots') (hmem : ∀ p ∈ slots, p.1.name ≠ name) :
    slots'.cells.lookup name = none := by
  refine List.lookup_eq_none_iff.mpr fun q hq => ?_
  obtain ⟨p', hp', rfl⟩ := List.mem_map.mp hq
  have hcolumn : p'.1 ∈ slots.map Prod.fst := by
    rw [← columns_of_convert (convert_of_prepare h)]
    exact List.mem_map_of_mem hp'
  obtain ⟨p, hp, hcolumn⟩ := List.mem_map.mp hcolumn
  have hne := hmem p hp
  rw [hcolumn] at hne
  simpa using hne.symm

end Slots

theorem Row.cell?_setAll (row : Row) (cells : List (String × Cell)) (name : String) :
    (row.setAll cells).cell? name = (row.cell? name).map fun c => (cells.lookup name).getD c := by
  unfold cell? setAll
  induction row.cells with
  | nil => rfl
  | cons p rest ih =>
    obtain ⟨n, c⟩ := p
    rw [List.map_cons, List.lookup_cons, List.lookup_cons]
    by_cases hn : name == n
    · simp only [hn]
      rw [eq_of_beq hn]
      rfl
    · simpa only [hn] using ih

/-! ## Rows are written -/

namespace Database

variable {tenant : String} {db db' : Database} {r : Relation} {fields : Fields}

/-- Every table has a column of texts for the owners of its rows. -/
theorem exists_owner (r : Relation) : ∃ c ∈ r.columns, c.name = "tenant_id" := by
  cases r with
  | records t => cases t <;> decide
  | _ => decide

theorem kind_owner (r : Relation) : ∀ c ∈ r.columns, c.name = "tenant_id" → c.kind = .text := by
  cases r with
  | records t => cases t <;> decide
  | _ => decide

/-- A row whose owner is given gets this owner, whatever else is given. -/
theorem slot_owner {fresh : String} {c : Column} (h : fields.get? "tenant_id" = some (.str tenant)) (hc : c.name = "tenant_id") :
    slot fresh fields c = .given (.str tenant) := by
  unfold slot given?
  rw [hc, h]

/-- The owner of a row that is added. -/
theorem holds_of_prepare {fresh : String} {slots : Slots} (h : fields.get? "tenant_id" = some (.str tenant))
    (hprepare : Slots.prepare (r.columns.map fun c => (c, slot fresh fields c)) = .ok slots) :
    (⟨r, slots.cells⟩ : Row).holds "tenant_id" tenant := by
  have howner : slots.cells.lookup "tenant_id" = some (.value (.str tenant)) := by
    refine Slots.lookup_cells (v := .str tenant) hprepare ?_ ?_
    · obtain ⟨c, hc, hname⟩ := exists_owner r
      exact ⟨_, List.mem_map_of_mem hc, hname⟩
    · intro p hp hname
      obtain ⟨c, hc, rfl⟩ := List.mem_map.mp hp
      exact ⟨kind_owner r c hc hname, slot_owner h hname⟩
  unfold Row.holds Row.value Row.cell?
  rw [howner]
  exact beq_self_eq_true tenant

theorem insertSlots_within {fresh : String} (h : fields.get? "tenant_id" = some (.str tenant))
    (hinsert : db.insertSlots r (r.columns.map fun c => (c, slot fresh fields c)) = .ok db') : db.Within tenant db' := by
  obtain ⟨slots, hprepare, hinsert⟩ := bind_eq_ok hinsert
  obtain ⟨-, -, hinsert⟩ := bind_eq_ok hinsert
  obtain ⟨-, -, hinsert⟩ := bind_eq_ok hinsert
  cases hinsert
  exact ⟨id, [⟨r, slots.cells⟩], by rw [List.map_id], Row.Kept.refl,
    List.forall_mem_singleton.mpr (holds_of_prepare h hprepare)⟩

theorem orUnchanged_within {x : Except Failure Database} (h : ∀ db', x = .ok db' → db.Within tenant db') :
    db.Within tenant (db.orUnchanged x).2 := by
  cases x with
  | ok db' => exact h db' rfl
  | error f => exact .refl db

/-- **A row that is added** belongs to the tenant that is given as its owner. -/
theorem insert_within (h : fields.get? "tenant_id" = some (.str tenant)) : db.Within tenant (db.insert r fields).2 := by
  unfold insert
  dsimp only
  split
  · exact (within_freshId db).trans (orUnchanged_within fun _ => insertSlots_within h)
  · exact orUnchanged_within fun _ => insertSlots_within h

/-- A change names the columns that it is given fields for, and the time of the change. -/
theorem name_of_changedSlots {p : Column × Slot} (hp : p ∈ changedSlots r fields) :
    fields.get? p.1.name ≠ none ∨ p.1.name = "updated_at" := by
  unfold changedSlots at hp
  obtain ⟨c, -, hc⟩ := List.mem_filterMap.mp hp
  split at hc
  · next v hv =>
    cases hc
    exact .inl (by rw [hv]; exact nofun)
  · split at hc
    · next hname =>
      cases hc
      exact .inr hname
    · cases hc

/-- A column for which nothing is given is left as it is, but for the time of the change. -/
theorem cell?_of_not_changed {slots : Slots} {name : String} (h : (changedSlots r fields).prepare = .ok slots)
    (hnone : fields.get? name = none) (hname : name ≠ "updated_at") (row : Row) : (row.setAll slots.cells).cell? name = row.cell? name := by
  have hlookup : slots.cells.lookup name = none := by
    refine Slots.lookup_cells_eq_none h fun p hp heq => ?_
    obtain hgiven | hdate := name_of_changedSlots hp
    · exact hgiven (heq ▸ hnone)
    · exact hname (heq.symm.trans hdate)
  rw [Row.cell?_setAll, hlookup]
  exact Option.map_id'

/-- What a change that selects rows of the tenant only, and names neither the id nor the owner, does to a row. -/
theorem kept_of_prepare {selects : Row → Bool} {slots : Slots} (hselects : ∀ row, selects row → row.holds "tenant_id" tenant)
    (hid : fields.get? "id" = none) (howner : fields.get? "tenant_id" = none) (h : (changedSlots r fields).prepare = .ok slots)
    (row : Row) : row.Kept tenant (if row.relation == r && selects row then row.setAll slots.cells else row) := by
  split
  · next htarget =>
    have hrow := hselects row (Bool.and_eq_true_iff.mp htarget).2
    refine ⟨rfl, ?_, ?_, fun hforeign => absurd (hforeign.symm.trans hrow) Bool.false_ne_true⟩
    · exact cell?_of_not_changed h hid (by decide) row
    · exact cell?_of_not_changed h howner (by decide) row
  · exact .refl row

/-- **A change** that selects rows of the tenant only and names neither the id nor the owner leaves all others as they were. -/
theorem change_within {selects : Row → Bool} (hselects : ∀ row, selects row → row.holds "tenant_id" tenant)
    (hid : fields.get? "id" = none) (howner : fields.get? "tenant_id" = none) (h : db.change r selects fields = .ok db') :
    db.Within tenant db' := by
  obtain ⟨slots, hprepare, h⟩ := bind_eq_ok h
  have hkept := kept_of_prepare (r := r) hselects hid howner hprepare
  dsimp only at h
  split at h
  · obtain ⟨-, -, h⟩ := bind_eq_ok h
    cases h
    exact .of_map hkept
  · cases h
    exact .of_map hkept

/-! ## The statements of the stores -/

/-- **A record** that is opened for a tenant. -/
theorem create_within (h : fields.get? "tenant_id" = some (.str tenant)) : db.Within tenant (db.create r fields).2 := by
  unfold create
  dsimp only
  split
  · exact within_freshId db
  · exact (within_freshId db).trans (insert_within h)

theorem isOf_holds {id : String} {row : Row} (h : row.isOf tenant id) : row.holds "tenant_id" tenant :=
  (Bool.and_eq_true_iff.mp h).2

/-- **A record** that is changed for a tenant. -/
theorem update_within {id : String} (hid : fields.get? "id" = none) (howner : fields.get? "tenant_id" = none)
    (h : db.update r tenant id fields = .ok db') : db.Within tenant db' := by
  unfold update at h
  split at h
  · exact change_within (fun _ => isOf_holds) hid howner h
  · cases h

/-- **A notification** goes into the inbox of its recipient. -/
theorem record_within (recipient : Recipient) (payload : Payload) :
    db.Within recipient.tenant (db.record recipient payload).2 := by
  unfold record
  exact (within_freshId db).trans (insert_within rfl)

/-- The owner of a new row is the tenant, whatever its fields say. -/
theorem owner_recordFields (parts : Parts) : (recordFields tenant parts).get? "tenant_id" = some (.str tenant) := by
  unfold recordFields
  dsimp only
  split
  · exact Fields.get?_set_self
  · rw [Fields.get?_set_of_ne (by decide)]
    exact Fields.get?_set_self

/-- **A record of a workflow** that is added for a tenant. -/
theorem insertRecord_within (t : Table) (fields : Fields) : db.Within tenant (db.insertRecord t tenant fields).2 := by
  unfold insertRecord
  split
  · exact insert_within (owner_recordFields _)
  · exact .refl db

/-- The id and the owner of a row stay, whatever the fields say. -/
theorem recordChanges_eq_none {row : Row} {parts : Parts} {name : String} (h : name = "id" ∨ name = "tenant_id") :
    (recordChanges row parts).get? name = none := by
  have herased : ∀ p ∈ (parts.columns.erase "tenant_id").erase "id", p.1 ≠ name := by
    intro p hp
    simp only [Fields.erase, List.mem_filter, bne_iff_ne] at hp
    obtain rfl | rfl := h
    · exact hp.2
    · exact hp.1.2
  refine Fields.get?_eq_none_iff.mpr fun p hp => ?_
  have hall := (List.mem_filter.mp hp).1
  split at hall
  · exact herased p hall
  · obtain hcolumn | hattributes := List.mem_append.mp hall
    · exact herased p hcolumn
    · obtain rfl := List.mem_singleton.mp hattributes
      show attributes ≠ name
      obtain rfl | rfl := h <;> decide

/-- **A record of a workflow** that is changed for a tenant. -/
theorem updateRecord_within {t : Table} {id : String} {found : Bool} (h : db.updateRecord t tenant id fields = .ok (found, db')) :
    db.Within tenant db' := by
  obtain ⟨parts, -, h⟩ := bind_eq_ok h
  split at h
  · cases h
    exact .refl db
  · dsimp only at h
    split at h
    · cases h
      exact .refl db
    · obtain ⟨db₁, hchange, h⟩ := bind_eq_ok h
      cases h
      refine change_within (fun row hrow => ?_) (recordChanges_eq_none (.inl rfl)) (recordChanges_eq_none (.inr rfl)) hchange
      exact isOf_holds (Bool.and_eq_true_iff.mp hrow).1

end Database

end Runbook
