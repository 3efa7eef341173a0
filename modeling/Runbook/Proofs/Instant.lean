import Runbook.Proofs.Cells
import Runbook.Proofs.Fields
import Runbook.Proofs.Tenant
import Runbook.Proofs.WallClock

/-!
# Moments that are given as texts

A text for a column of moments is read, and what is kept of it is what the wall clock shows: the offset is dropped. So two texts
that denote one instant are kept as one value only if they have one offset, and what is kept is the instant in universal time only
if that offset is none.

* `Row.IsStored`: rows as they come about by statements, with something in each of their columns, and moments without an offset.
* `Database.insert_isStored`, `Database.change_isStored`: statements leave such rows. `Engine.run_leaves_stored`: so do runs,
  which is why a record that a run changes can be taken to be such a row.
* `Database.insertRecord_moment`, `Database.updateRecord_moment`: what becomes of a text that is given for a moment.
* **`Database.moments_keep_the_wall_clock`**: what is kept of two texts that denote one instant.
-/

namespace Runbook

/-! ## Rows as statements leave them -/

/-- A row with something in each of its columns. A moment in it has no offset. -/
structure Row.IsStored (row : Row) : Prop where
  whole : ∀ c ∈ row.relation.columns, (row.cell? c.name).isSome
  naive : ∀ c ∈ row.relation.columns, c.kind = .moment → ∀ t, row.cell? c.name = some (.value (.dateTime t)) → t.offset = none

/-- A database with such rows only. -/
def Database.IsStored (db : Database) : Prop := ∀ row ∈ db.rows, row.IsStored

theorem Column.Kind.offset_of_momentOf {v : Value} {t : DateTime} (h : momentOf v = .ok (.dateTime t)) : t.offset = none := by
  unfold momentOf at h
  split at h <;> cases h <;> rfl

theorem Slot.offset_of_convert {s s' : Slot} {t : DateTime} (h : s.convert .moment = .ok s')
    (hcell : s'.cell .moment = .value (.dateTime t)) : t.offset = none := by
  cases s with
  | given v =>
    obtain ⟨w, hw, rfl⟩ := map_eq_ok h
    obtain rfl : w = .dateTime t := Cell.value.inj hcell
    exact Column.Kind.offset_of_momentOf hw
  | now | absent =>
    cases h
    cases hcell

namespace Database

variable {db db' : Database} {r : Relation} {t : Table} {fields : Fields} {c : Column} {tenant id : String} {slots slots' : Slots}

/-- No moment is written with an offset. -/
theorem offset_of_prepare (h : slots.prepare = .ok slots') (hslots : ∀ p ∈ slots, p.1 ∈ r.columns) (hc : c ∈ r.columns)
    (hkind : c.kind = .moment) {d : DateTime} (hcell : slots'.cells.lookup c.name = some (.value (.dateTime d))) :
    d.offset = none := by
  obtain ⟨⟨c', s⟩, hs, hname, s', hconvert, hs'⟩ := Slots.exists_slot_of_lookup h hcell
  obtain rfl : c' = c := Option.some.inj ((column?_eq_some.mpr ⟨hslots _ hs, hname⟩).symm.trans (column?_eq_some.mpr ⟨hc, rfl⟩))
  rw [hkind] at hconvert hs'
  exact Slot.offset_of_convert hconvert hs'

theorem isStored_of_insert {fresh : String} (h : Slots.prepare (r.columns.map fun c => (c, slot fresh fields c)) = .ok slots) :
    (⟨r, slots.cells⟩ : Row).IsStored where
  whole c hc := Slots.isSome_lookup_cells h ⟨_, List.mem_map_of_mem hc, rfl⟩
  naive c hc hkind d hcell := by
    refine offset_of_prepare h (fun p hp => ?_) hc hkind hcell
    obtain ⟨c', hc', rfl⟩ := List.mem_map.mp hp
    exact hc'

theorem mem_columns_of_changedSlots {p : Column × Slot} (hp : p ∈ changedSlots r fields) : p.1 ∈ r.columns := by
  obtain ⟨c, hc, heq⟩ := List.mem_filterMap.mp hp
  split at heq
  · cases heq
    exact hc
  · split at heq <;> cases heq
    exact hc

theorem isStored_of_change {row : Row} (hrow : row.IsStored) (h : (changedSlots row.relation fields).prepare = .ok slots) :
    (row.setAll slots.cells).IsStored where
  whole c hc := by
    rw [Row.cell?_setAll, Option.isSome_map]
    exact hrow.whole c hc
  naive c hc hkind d hcell := by
    rw [Row.cell?_setAll] at hcell
    obtain ⟨old, hold, hcell⟩ := Option.map_eq_some_iff.mp hcell
    cases hnew : slots.cells.lookup c.name with
    | none =>
      rw [hnew] at hcell
      obtain rfl := hcell
      exact hrow.naive c hc hkind d hold
    | some new =>
      rw [hnew] at hcell
      obtain rfl := hcell
      exact offset_of_prepare h (fun p hp => mem_columns_of_changedSlots hp) hc hkind hnew

/-- **What is added** is a row as it comes about by statements. -/
theorem insert_isStored (hdb : db.IsStored) : (db.insert r fields).2.IsStored := by
  generalize hinsert : db.insert r fields = p
  obtain ⟨result, db'⟩ := p
  obtain ⟨f, -, hrows⟩ | ⟨-, fresh, slots, hprepare, hrows, -⟩ := insert_cases hinsert
  · unfold IsStored
    rw [hrows]
    exact hdb
  · unfold IsStored
    rw [hrows]
    exact List.forall_mem_append.mpr ⟨hdb, List.forall_mem_singleton.mpr (isStored_of_insert hprepare)⟩

/-- **What is changed** stays one. -/
theorem change_isStored {selects : Row → Bool} (hdb : db.IsStored) (h : db.change r selects fields = .ok db') : db'.IsStored := by
  obtain ⟨slots, hprepare, hrows⟩ := change_ok h
  unfold IsStored
  rw [hrows]
  intro row' hrow'
  obtain ⟨row, hrow, rfl⟩ := List.mem_map.mp hrow'
  split
  · next htarget =>
    obtain rfl := eq_of_beq (Bool.and_eq_true_iff.mp htarget).1
    exact isStored_of_change (hdb row hrow) hprepare
  · exact hdb row hrow

theorem insertRecord_isStored (hdb : db.IsStored) : (db.insertRecord t tenant fields).2.IsStored := by
  unfold insertRecord
  split
  · exact insert_isStored hdb
  · exact hdb

theorem updateRecord_isStored {found : Bool} (hdb : db.IsStored) (h : db.updateRecord t tenant id fields = .ok (found, db')) :
    db'.IsStored := by
  obtain ⟨parts, -, h⟩ := bind_eq_ok h
  split at h
  · cases h
    exact hdb
  · dsimp only at h
    split at h
    · cases h
      exact hdb
    · obtain ⟨db₁, hchange, h⟩ := bind_eq_ok h
      cases h
      exact change_isStored hdb hchange

/-- A record of the audit that is opened. -/
theorem create_isStored (hdb : db.IsStored) : (db.create r fields).2.IsStored := by
  have hfresh : db.freshId.2.IsStored := hdb
  unfold create
  dsimp only
  split
  · exact hfresh
  · exact insert_isStored hfresh

/-- A record of the audit that is changed. -/
theorem update_isStored (hdb : db.IsStored) (h : db.update r tenant id fields = .ok db') : db'.IsStored := by
  unfold update at h
  split at h
  · exact change_isStored hdb h
  · cases h

/-- A notification in an inbox. -/
theorem record_isStored (recipient : Recipient) (payload : Payload) (hdb : db.IsStored) :
    (db.record recipient payload).2.IsStored := by
  have hfresh : db.freshId.2.IsStored := hdb
  unfold record
  exact insert_isStored hfresh

/-- After a change all rows are as statements leave them, if they were before. -/
def LeavesStored (db db' : Database) : Prop := db.IsStored → db'.IsStored

instance : Std.Refl LeavesStored := ⟨fun _ hdb => hdb⟩

instance : IsTrans Database LeavesStored := ⟨fun _ _ _ h h' hdb => h' (h hdb)⟩

end Database

/-- The statements of a call leave rows as statements do, whatever they are made for. -/
theorem Call.keepsStored (c : Call) : c.Keeps Database.LeavesStored := by
  cases c with
  | createExecution | createStepRun => exact fun db => Database.create_isStored
  | updateExecution | updateStepRun => exact fun db db' h hdb => Database.update_isStored hdb h
  | freshId => exact fun db hdb => hdb
  | notify recipients payload => exact fun recipient _ db => Database.record_isStored recipient payload
  | insert => exact fun db => Database.insertRecord_isStored
  | update => exact fun db db' found h hdb => Database.updateRecord_isStored hdb h
  | getWorkflow | sendEmail | http | closeHttp => trivial

/-- **A run leaves rows as statements do**, in each of its moves, and as a whole as long as nobody else touches the database. -/
theorem Engine.run_leaves_stored (w : Wiring) (g : Engine) (o : Order) (s : Schedule w.setting) (token : Option Nat) :
    (∀ m, (launched g o s token).Goes m → m.activity.IsOf s.fibers.length →
      m.schedule.world.database.LeavesStored m.next.schedule.world.database) ∧
    (∀ m, (launched g o s token).GoesAlone s.fibers.length World.database m →
      s.world.database.LeavesStored m.schedule.world.database) := by
  have hmove : ∀ m, (launched g o s token).Goes m → m.activity.IsOf s.fibers.length →
      m.schedule.world.database.LeavesStored m.next.schedule.world.database := by
    intro m h hof
    obtain ⟨φ, hin, -⟩ := phase_obeys_of_goes (run_obeys_staying g o) h
    exact hin.keeps hof fun c _ _ _ => c.keepsStored
  exact ⟨hmove, fun m h => h.keeps hmove⟩

namespace Database

/-! ## What becomes of a text -/

variable {db db' : Database} {t : Table} {fields : Fields} {c : Column} {tenant id : String} {slots : Slots}
  {text text' : String} {a a' : DateTime} {i : Int} {found : Bool}

/-- The text is read for the column. -/
theorem readFor_moment (hkind : c.kind = .moment) (htext : DateTime.readIso (withOffset text) = .ok a) :
    readFor c (.str text) = .ok (.dateTime a) := by
  unfold readFor
  rw [hkind]
  dsimp only
  rw [htext]
  rfl

/-- Columns of moments are none of those that have a meaning of their own. -/
theorem name_of_moment (hc : c ∈ (Relation.records t).columns) (hkind : c.kind = .moment) :
    c.name ≠ attributes ∧ c.name ≠ "id" ∧ c.name ≠ "tenant_id" := by
  have hall : ∀ c ∈ (Relation.records t).columns, c.kind = .moment → c.name ≠ attributes ∧ c.name ≠ "id" ∧ c.name ≠ "tenant_id" := by
    cases t <;> decide
  exact hall c hc hkind

theorem get?_moment_of_split {parts : Parts} (hc : c ∈ (Relation.records t).columns) (hkind : c.kind = .moment)
    (htext : DateTime.readIso (withOffset text) = .ok a) (hgiven : fields.get? c.name = some (.str text))
    (hsplit : split t fields = .ok parts) : parts.columns.get? c.name = some (.dateTime a) := by
  have hget := get?_of_split (column?_eq_some.mpr ⟨hc, rfl⟩) (name_of_moment hc hkind).1 hsplit
  rw [hgiven] at hget
  obtain ⟨w, hw, hget⟩ := hget
  obtain rfl := Except.ok.inj ((readFor_moment hkind htext).symm.trans hw)
  exact hget

theorem cell_of_moment {s : Slot} (h : (Slot.given (.dateTime a)).convert .moment = .ok s) :
    s.cell .moment = .value (.dateTime a.withoutOffset) := by
  cases h
  rfl

/-- **A text that is given for a moment of a new record** is kept as what the wall clock shows. -/
theorem insertRecord_moment (hc : c ∈ (Relation.records t).columns) (hkind : c.kind = .moment)
    (htext : DateTime.readIso (withOffset text) = .ok a) (hgiven : fields.get? c.name = some (.str text))
    (h : db.insertRecord t tenant fields = (.ok (), db')) :
    ∃ row, db'.rows = db.rows ++ [row] ∧ row.cell? c.name = some (.value (.dateTime a.withoutOffset)) := by
  obtain ⟨f, hfail, -⟩ | ⟨-, parts, fresh, slots, hsplit, hprepare, hrows, -⟩ := insertRecord_cases h
  · cases hfail
  · obtain ⟨hattributes, -, howner⟩ := name_of_moment hc hkind
    have hget : (recordFields tenant parts).get? c.name = some (.dateTime a) :=
      (get?_recordFields howner hattributes).trans (get?_moment_of_split hc hkind htext hgiven hsplit)
    refine ⟨_, hrows, cell?_of_insert hprepare (column?_eq_some.mpr ⟨hc, rfl⟩) fun s hs => ?_⟩
    rw [slot_of_some hget nofun, hkind] at hs
    rw [hkind]
    exact cell_of_moment hs

/-- A moment with an offset is another value than one without. -/
theorem differs_of_offset {row : Row} {name : String} (ha : a.instant? = some i)
    (hnaive : ∀ d, row.cell? name = some (.value (.dateTime d)) → d.offset = none) : differs row name (.dateTime a) := by
  refine differs_iff.mpr fun w hcell hequal => ?_
  obtain ⟨d, rfl, hsame⟩ := Value.alike_dateTime.mp (.of_equal hequal)
  have hd : d.instant? = none := by
    unfold DateTime.instant?
    rw [hnaive d hcell]
    rfl
  unfold Value.sameMoment at hsame
  rw [ha, hd] at hsame
  cases hsame

/-- **A text that is given for a moment of a record that is changed** is kept as what the wall clock shows, too. -/
theorem updateRecord_moment (hdb : db.IsStored) (hc : c ∈ (Relation.records t).columns) (hkind : c.kind = .moment)
    (htext : DateTime.readIso (withOffset text) = .ok a) (ha : a.instant? = some i) (hgiven : fields.get? c.name = some (.str text))
    (h : db.updateRecord t tenant id fields = .ok (true, db')) :
    ∃ change : Row → Row, db'.rows = db.rows.map change ∧ (∃ row ∈ db.rows, row.relation = .records t ∧ isLive tenant id row) ∧
      ∀ row ∈ db.rows, if row.relation = .records t ∧ isLive tenant id row
        then (change row).cell? c.name = some (.value (.dateTime a.withoutOffset)) else change row = row := by
  obtain ⟨parts, hsplit, ⟨hfound, -⟩ | ⟨-, row, hrow, hchange⟩⟩ := updateRecord_cases h
  · cases hfound
  obtain ⟨hattributes, hid, howner⟩ := name_of_moment hc hkind
  have hmem : row ∈ db.rows ∧ (row.relation == .records t && isLive tenant id row) = true :=
    List.mem_filter.mp (List.mem_of_mem_head? hrow)
  obtain ⟨hrelation, hlive⟩ := Bool.and_eq_true_iff.mp hmem.2
  have hrelation : row.relation = .records t := eq_of_beq hrelation
  have hdiffers : differs row c.name (.dateTime a) :=
    differs_of_offset ha ((hdb row hmem.1).naive c (by rw [hrelation]; exact hc) hkind)
  have hget : (recordChanges row parts).get? c.name = some (.dateTime a) :=
    get?_recordChanges hid howner (get?_moment_of_split hc hkind htext hgiven hsplit) hdiffers
  obtain ⟨hnone, -⟩ | ⟨slots, hprepare, hrows⟩ := hchange
  · rw [hnone] at hget
    cases hget
  · have hlookup : slots.cells.lookup c.name = some (.value (.dateTime a.withoutOffset)) := by
      refine lookup_of_change hprepare (column?_eq_some.mpr ⟨hc, rfl⟩) hget fun s hs => ?_
      rw [hkind] at hs ⊢
      exact cell_of_moment hs
    refine ⟨_, hrows, ⟨row, hmem.1, hrelation, hlive⟩, fun other hother => ?_⟩
    simp only [Bool.and_eq_true, beq_iff_eq]
    split
    · next htarget =>
      obtain ⟨old, hold⟩ := Option.isSome_iff_exists.mp ((hdb other hother).whole c (by rw [htarget.1]; exact hc))
      rw [Row.cell?_setAll, hold, hlookup]
      rfl
    · rfl

/-- **Two texts for one instant** are kept as what the wall clocks show where they are meant: as one value exactly if they have one
offset, and as the time of the instant in universal time exactly if they have none. -/
theorem moments_keep_the_wall_clock (hc : c ∈ (Relation.records t).columns) (hkind : c.kind = .moment)
    (htext : DateTime.readIso (withOffset text) = .ok a) (htext' : DateTime.readIso (withOffset text') = .ok a')
    (ha : a.instant? = some i) (ha' : a'.instant? = some i) :
    (∀ db tenant record db', Fields.get? record c.name = some (.str text) → insertRecord db t tenant record = (.ok (), db') →
      ∃ row, db'.rows = db.rows ++ [row] ∧ row.cell? c.name = some (.value (.dateTime a.withoutOffset))) ∧
    (∀ db tenant id fields db', IsStored db → Fields.get? fields c.name = some (.str text) →
      updateRecord db t tenant id fields = .ok (true, db') →
      ∃ change : Row → Row, db'.rows = db.rows.map change ∧ (∃ row ∈ db.rows, row.relation = .records t ∧ isLive tenant id row) ∧
        ∀ row ∈ db.rows, if row.relation = .records t ∧ isLive tenant id row
          then (change row).cell? c.name = some (.value (.dateTime a.withoutOffset)) else change row = row) ∧
    (a.withoutOffset = a'.withoutOffset ↔ a.offset = a'.offset) ∧
    (a.withoutOffset.wallClock = i ↔ a.offset = some 0) := by
  have hvalid := DateTime.isValid_of_readIso htext
  have hvalid' := DateTime.isValid_of_readIso htext'
  obtain ⟨o, ho, -⟩ := Option.map_eq_some_iff.mp ha
  have hclock : a.wallClock = i + o := DateTime.wallClock_of_instant? ha ho
  refine ⟨fun _ _ _ _ hgiven h => insertRecord_moment hc hkind htext hgiven h,
    fun _ _ _ _ _ hdb hgiven h => updateRecord_moment hdb hc hkind htext ha hgiven h,
    DateTime.withoutOffset_eq_iff hvalid hvalid' ha ha', ?_⟩
  rw [ho, Option.some_inj]
  show a.wallClock = i ↔ o = 0
  omega

/-- Nine o'clock in universal time, and the same instant where it is ten: first one is kept, and then the other. -/
theorem moments_keep_the_wall_clock_of_an_order : ∃ db₁ db₂ : Database,
    insertRecord {} .purchaseOrders "t1" [("id", .str "a"), ("expected_delivery_date", .str "2026-11-01T09:00:00Z")] = (.ok (), db₁) ∧
    updateRecord db₁ .purchaseOrders "t1" "a" [("expected_delivery_date", .str "2026-11-01T10:00:00+01:00")] = .ok (true, db₂) ∧
    (∃ row ∈ db₁.rows, row.cell? "expected_delivery_date" = some (.value (.dateTime ⟨⟨2026, 11, 1⟩, 9, 0, 0, 0, none⟩))) ∧
    (∃ row ∈ db₂.rows, row.cell? "expected_delivery_date" = some (.value (.dateTime ⟨⟨2026, 11, 1⟩, 10, 0, 0, 0, none⟩))) := by
  let c : Column := { name := "expected_delivery_date", kind := .moment }
  let record : Fields := [("id", .str "a"), ("expected_delivery_date", .str "2026-11-01T09:00:00Z")]
  let fields : Fields := [("expected_delivery_date", .str "2026-11-01T10:00:00+01:00")]
  let nine : DateTime := ⟨⟨2026, 11, 1⟩, 9, 0, 0, 0, some 0⟩
  let ten : DateTime := ⟨⟨2026, 11, 1⟩, 10, 0, 0, 0, some 3600000000⟩
  have hc : c ∈ (Relation.records .purchaseOrders).columns := by simp [Relation.columns, Relation.recordOwn, c]
  have hnine : DateTime.readIso (withOffset "2026-11-01T09:00:00Z") = .ok nine :=
    toOption_eq_some.mp (by decide +kernel)
  have hten : DateTime.readIso (withOffset "2026-11-01T10:00:00+01:00") = .ok ten :=
    toOption_eq_some.mp (by decide +kernel)
  have hinstant : nine.instant? = some nine.wallClock := by decide +kernel
  have hinstant' : ten.instant? = some nine.wallClock := by decide +kernel
  have hinsert : (insertRecord {} .purchaseOrders "t1" record).1 = .ok () := toOption_eq_some.mp (by decide +kernel)
  generalize hdb : (insertRecord {} .purchaseOrders "t1" record).2 = db₁
  have hinserted : insertRecord {} .purchaseOrders "t1" record = (.ok (), db₁) := Prod.ext hinsert hdb
  have hstored : db₁.IsStored := hdb ▸ insertRecord_isStored (List.forall_mem_nil _)
  have hupdate : (updateRecord db₁ .purchaseOrders "t1" "a" fields).toOption.map Prod.fst = some true := by
    rw [← hdb]
    decide +kernel
  obtain ⟨⟨found, db₂⟩, hupdated, hfound⟩ := Option.map_eq_some_iff.mp hupdate
  obtain rfl : found = true := hfound
  have hupdated := toOption_eq_some.mp hupdated
  obtain ⟨hkeeps, -⟩ := moments_keep_the_wall_clock hc rfl hnine hten hinstant hinstant'
  obtain ⟨-, hkeeps', -⟩ := moments_keep_the_wall_clock hc rfl hten hnine hinstant' hinstant
  obtain ⟨row, hrows, hcell⟩ := hkeeps {} "t1" record db₁ rfl hinserted
  obtain ⟨change, hrows', ⟨row', hmem, hlive⟩, hcells⟩ := hkeeps' db₁ "t1" "a" fields db₂ hstored rfl hupdated
  have hcell' := hcells row' hmem
  rw [if_pos hlive] at hcell'
  exact ⟨db₁, db₂, hinserted, hupdated, ⟨row, hrows ▸ List.mem_append_right _ (List.mem_singleton_self row), hcell⟩,
    change row', hrows' ▸ List.mem_map_of_mem hmem, hcell'⟩

end Database

end Runbook
