import Runbook.Proofs.Blind
import Runbook.Proofs.Doing
import Runbook.Proofs.Fields
import Runbook.Proofs.Merge

/-!
# Histories of a record

A record is added and then changed, again and again, by changes that succeed, fail or find nothing. Each that succeeds sets the
columns that it names and writes over the attributes, and nothing else; the id and the owner stay. So the attributes of a record are
what its history settles to, and each other column is as the last change left it that named it.

* `Amendment`, `Database.amend`, `Database.amendAll`: a change that is asked for, and a history of them.
* `Database.writtenTo`: what the changes of a history that were made to a record write among its attributes.
* `Database.IsRecord`: the record that stands in the last row, with these attributes.
* `Database.isRecord_of_insertRecord`, **`Database.IsRecord.amend`**, `Database.IsRecord.amendAll`: how it comes about, what one
  change makes of it, and what a history does.
* **`Database.attributes_of_history`**: the attributes after any history, and all that it leaves as it was.
-/

namespace Runbook

/-- What the column of attributes holds for these fields. -/
def Fields.kept (fs : Fields) : Value := if fs.isEmpty then .null else fs.toValue

/-- A change that is asked for. -/
structure Amendment where
  table : Table
  tenant : String
  id : String
  fields : Fields

/-- A change that was asked for, and what was answered. -/
abbrev Amended := Amendment × Except Failure Bool

/-- A row as changes leave it: with its id and its owner, and with all columns but the attributes and the time of the change as they
were, unless they are named. -/
structure Row.Keeps (named : String → Prop) (row row' : Row) : Prop where
  id : row'.cell? "id" = row.cell? "id"
  owner : row'.cell? "tenant_id" = row.cell? "tenant_id"
  columns : ∀ name, name ≠ Database.attributes → name ≠ "updated_at" → ¬ named name → row'.cell? name = row.cell? name

theorem Row.Keeps.refl (named : String → Prop) (row : Row) : row.Keeps named row := ⟨rfl, rfl, fun _ _ _ _ => rfl⟩

theorem Row.Keeps.mono {named named' : String → Prop} {row row' : Row} (h : row.Keeps named row')
    (hnamed : ∀ name, named name → named' name) : row.Keeps named' row' :=
  ⟨h.id, h.owner, fun name hattributes htime hname => h.columns name hattributes htime (mt (hnamed name) hname)⟩

theorem Row.Keeps.trans {named : String → Prop} {row row' row'' : Row} (h : row.Keeps named row') (h' : row'.Keeps named row'') :
    row.Keeps named row'' where
  id := h'.id.trans h.id
  owner := h'.owner.trans h.owner
  columns name hattributes htime hnamed :=
    (h'.columns name hattributes htime hnamed).trans (h.columns name hattributes htime hnamed)

namespace Database

/-- Makes a change. If that fails, the database stays as it was. -/
def amend (a : Amendment) : Database → Except Failure Bool × Database :=
  transacted fun db => db.updateRecord a.table a.tenant a.id a.fields

/-- Makes changes one after the other. -/
def amendAll : List Amendment → Database → List Amended × Database
  | [], db => ([], db)
  | a :: rest, db =>
    let (answer, db) := amend a db
    let (history, db) := amendAll rest db
    ((a, answer) :: history, db)

/-- Whether a change was made, and to this record. -/
def isMadeTo (t : Table) (tenant id : String) (p : Amended) : Bool :=
  p.1.table == t && p.1.tenant == tenant && p.1.id == id && (p.2 matches .ok true)

/-- What was written among the attributes of a record. -/
def writtenTo (t : Table) (tenant id : String) (history : List Amended) : List Fields :=
  (history.filter (isMadeTo t tenant id)).map fun p => attributesOf t p.1.fields

/-- The record in the last row, the only one of its table under its id, with these attributes. -/
structure IsRecord (t : Table) (tenant id : String) (stored : Fields) (before : List Row) (row : Row) (db : Database) : Prop where
  rows : db.rows = before ++ [row]
  alone : ∀ other ∈ before, other.isNamed (.records t) id = false
  relation : row.relation = .records t
  id : row.holds "id" id
  owner : row.holds "tenant_id" tenant
  attributes : row.cell? attributes = some (.value stored.kept)
  forms : stored.AreForms

variable {db db' : Database} {t : Table} {tenant id : String} {stored fields : Fields} {parts : Parts} {row : Row} {before : List Row}
  {a : Amendment} {r : Relation} {fresh : String} {slots slots' : Slots}

/-! ## Attributes -/

theorem areForms_attributesOf (h : fields.AreForms) : (attributesOf t fields).AreForms where
  nodup := h.nodup.sublist (List.filter_sublist.map _)
  form p hp := h.form p (List.mem_filter.mp hp).1

theorem attributes_column (t : Table) : (Relation.records t).column? attributes = some ⟨attributes, .json, false, .nothing⟩ := by
  cases t <;> rfl

theorem cell_of_json {v : Value} (hv : v.jsonForm = .ok v) {s : Slot} (h : (Slot.given v).convert .json = .ok s) :
    s.cell .json = .value v := by
  obtain ⟨w, hw, rfl⟩ := map_eq_ok h
  have hform : v.jsonForm.mapError (fun e => Column.Kind.unfit "TypeError" e.message) = .ok w := hw
  rw [hv] at hform
  cases hform
  rfl

/-- The attributes of a new record are the fields that are no columns. -/
theorem cell?_attributes_of_insert (hsplit : split t fields = .ok parts) (hfields : fields.AreForms)
    (h : Slots.prepare ((Relation.records t).columns.map fun c => (c, slot fresh (recordFields tenant parts) c)) = .ok slots) :
    (⟨.records t, slots.cells⟩ : Row).cell? attributes = some (.value (attributesOf t fields).kept) := by
  have hget := get?_attributes_recordFields tenant (get?_attributes_of_split hsplit)
  rw [extra_of_split hsplit] at hget
  refine cell?_of_insert h (attributes_column t) fun s hs => ?_
  unfold Fields.kept
  split at hget
  · next hempty =>
    rw [slot_of_none hget] at hs
    cases hs
    rw [if_pos hempty]
    rfl
  · next hempty =>
    rw [slot_of_some hget fun _ => rfl] at hs
    rw [if_neg hempty]
    exact cell_of_json (areForms_attributesOf hfields).jsonForm_toValue hs

/-- What is merged into the attributes of a row. -/
theorem mergedAttributes_eq (h : row.cell? attributes = some (.value stored.kept)) (extra : Fields) :
    mergedAttributes row extra = (stored.merge extra).toEntries := by
  rw [← Fields.toEntries_merge]
  unfold mergedAttributes Row.value
  rw [h]
  cases stored with
  | nil => rfl
  | cons p stored => rfl

/-- Whether a merge is written is told by the fields that are held. -/
theorem alike_kept_iff {fs other : Fields} (h : other ≠ []) :
    (fs.merge other).toValue.Alike fs.kept ↔ (fs.merge other).toValue.Alike fs.toValue := by
  cases fs with
  | cons p fs => rfl
  | nil =>
    have hnull : ¬ (Fields.merge [] other).toValue.Alike .null := fun halike => by
      obtain ⟨es, hes, -⟩ := Value.alike_dict.mp halike
      cases hes
    refine iff_of_false hnull fun halike => ?_
    obtain ⟨es, hes, hlength, -⟩ := Value.alike_dict.mp halike
    obtain rfl : [] = es := Value.dict.inj hes
    exact Fields.merge_ne_nil h (List.map_eq_nil_iff.mp (List.eq_nil_of_length_eq_zero hlength))

/-- A change of a record gives the attributes another value, or they are settled as they are. -/
theorem get?_attributes_of_stored (hrow : row.cell? attributes = some (.value stored.kept))
    (hnone : parts.columns.get? attributes = none) :
    ((recordChanges row parts).get? attributes = none ∧ stored.settle parts.extra = stored) ∨
      (recordChanges row parts).get? attributes = some (stored.settle parts.extra).toValue ∧
        (stored.settle parts.extra).kept = (stored.settle parts.extra).toValue := by
  rw [get?_attributes_recordChanges hnone, mergedAttributes_eq hrow]
  cases hextra : parts.extra with
  | nil =>
    refine .inl ⟨rfl, ?_⟩
    obtain ⟨-, heq⟩ | ⟨-, heq⟩ := stored.settle_cases [] <;> exact heq
  | cons p extra =>
    have hdiffers : differs row attributes (.dict (stored.merge (p :: extra)).toEntries) ↔
        ¬ (stored.merge (p :: extra)).toValue.Alike stored.toValue := by
      rw [differs_iff, hrow, ← alike_kept_iff (List.cons_ne_nil p extra), Value.alike_iff_equal rfl]
      exact ⟨fun h => h _ rfl, fun h w hw => Cell.value.inj (Option.some.inj hw) ▸ h⟩
    obtain ⟨halike, heq⟩ | ⟨hunlike, heq⟩ := stored.settle_cases (p :: extra)
    · refine .inl ⟨if_neg fun h => ?_, heq⟩
      exact hdiffers.mp (Bool.and_eq_true_iff.mp h).2 halike
    · refine .inr ⟨?_, ?_⟩
      · rw [heq, hdiffers.mpr hunlike]
        rfl
      · rw [heq]
        exact if_neg fun h => Fields.merge_ne_nil (List.cons_ne_nil p extra) (List.isEmpty_iff.mp h)

/-! ## A new record -/

theorem required_id (r : Relation) : ∀ c ∈ r.columns, c.name = "id" → c.required := by
  cases r with
  | records t => cases t <;> decide
  | _ => decide

/-- A required column is not null. -/
theorem cell_ne_null (h : checkRequired r slots = .ok ()) {c : Column} {s : Slot} (hs : (c, s) ∈ slots) (hrequired : c.required)
    (hjson : c.kind ≠ .json) : s.cell c.kind ≠ .value .null := by
  unfold checkRequired at h
  split at h
  · cases h
  · next hnone =>
    have hok := List.find?_eq_none.mp (Option.map_eq_none_iff.mp hnone) _ hs
    intro hnull
    dsimp only at hok
    rw [hrequired, bne_iff_ne.mpr hjson, hnull] at hok
    exact hok rfl

/-- What is given for a column is accepted on its own. -/
theorem exists_accept {place : Nat} (h : slots.accept place = .ok ()) {c : Column} {v : Value} (hv : (c, .given v) ∈ slots) :
    ∃ place, c.kind.accept place v = .ok () := by
  induction slots generalizing place with
  | nil => cases hv
  | cons p slots ih =>
    obtain ⟨c', s⟩ := p
    have hrest : ∃ place, Slots.accept place slots = .ok () := by
      cases s with
      | given w =>
        obtain ⟨-, -, h⟩ := bind_eq_ok h
        exact ⟨_, h⟩
      | now | absent => exact ⟨_, h⟩
    obtain heq | hv := List.mem_cons.mp hv
    · cases heq
      obtain ⟨⟨⟩, hfirst, -⟩ := bind_eq_ok h
      exact ⟨place, hfirst⟩
    · obtain ⟨_, hrest⟩ := hrest
      exact ih hrest hv

theorem accept_of_prepare (h : slots.prepare = .ok slots') : slots'.accept 1 = .ok () := by
  obtain ⟨slots'', -, h⟩ := bind_eq_ok h
  obtain ⟨⟨⟩, haccept, h⟩ := bind_eq_ok h
  cases h
  exact haccept

/-- A column of texts that takes a JSON value keeps a text for it, but for what is not a number. -/
theorem keep_text_of_accept {v : Value} {place : Nat} (hform : v.jsonForm = .ok v) (haccept : Column.Kind.text.accept place v = .ok ())
    (hkeep : Column.Kind.text.keep v ≠ .null) : ∃ text, Column.Kind.text.keep v = .str text := by
  cases v with
  | null => exact absurd rfl hkeep
  | float x =>
    cases x with
    | nan => exact absurd rfl hkeep
    | inf | finite => exact ⟨_, rfl⟩
  | bool | int | str | date | dateTime => exact ⟨_, rfl⟩
  | bytes => cases hform
  | decimal | list | tuple | set | dict => cases haccept

/-- A new record has an id. -/
theorem exists_id_of_insert (hform : (fields.idOr fresh).jsonForm = .ok (fields.idOr fresh))
    (h : Slots.prepare (r.columns.map fun c => (c, slot fresh fields c)) = .ok slots) (hrequired : checkRequired r slots = .ok ()) :
    ∃ id, (⟨r, slots.cells⟩ : Row).value "id" = .str id := by
  obtain ⟨c, hc, hname⟩ := (id_columns r).1
  obtain ⟨hkind, -⟩ := (id_columns r).2 c hc hname
  have hcolumn : c ∈ slots.map Prod.fst := by
    rw [Slots.columns_of_convert (Slots.convert_of_prepare h), List.map_map]
    exact List.mem_map.mpr ⟨c, hc, rfl⟩
  obtain ⟨⟨c, s'⟩, hs', rfl⟩ := List.mem_map.mp hcolumn
  obtain ⟨s, hs, hconvert⟩ := Slots.mem_of_convert (Slots.convert_of_prepare h) hs'
  obtain ⟨c', hc', heq⟩ := List.mem_map.mp hs
  obtain ⟨rfl, rfl⟩ := Prod.mk.inj heq
  rw [slot_id hc hname] at hconvert
  dsimp only at hkind
  rw [hkind] at hconvert
  obtain rfl : .given (fields.idOr fresh) = s' := Except.ok.inj hconvert
  have hnull : Column.Kind.text.keep (fields.idOr fresh) ≠ .null := by
    have hcell := cell_ne_null hrequired hs' (required_id r _ hc hname) (hkind ▸ nofun)
    rw [hkind] at hcell
    exact fun hnull => hcell (congrArg Cell.value hnull)
  obtain ⟨place, haccept⟩ := exists_accept (accept_of_prepare h) hs'
  rw [hkind] at haccept
  obtain ⟨id, hid⟩ := keep_text_of_accept hform haccept hnull
  exact ⟨id, (value_id h).trans hid⟩

theorem jsonForm_idOr (h : fields.AreForms) : (fields.idOr fresh).jsonForm = .ok (fields.idOr fresh) := by
  unfold Fields.idOr
  split
  · rfl
  · rfl
  · next v _ hv =>
    obtain ⟨p, hp, rfl⟩ := Option.map_eq_some_iff.mp hv
    exact h.form p (List.mem_of_find?_eq_some hp)

/-- **A record that is added** stands in the last row, the only one under its id, with the fields that are no columns as its
attributes. -/
theorem isRecord_of_insertRecord (hfields : fields.AreForms) (h : db.insertRecord t tenant fields = (.ok (), db')) :
    ∃ id row, IsRecord t tenant id (attributesOf t fields) db.rows row db' := by
  obtain ⟨f, hfail, -⟩ | ⟨-, parts, fresh, slots, hsplit, hprepare, hrows, hrequired, hunique⟩ := insertRecord_cases h
  · cases hfail
  have hidOr : (recordFields tenant parts).idOr fresh = fields.idOr fresh := by
    unfold Fields.idOr
    rw [get?_recordFields (by decide) (by decide), get?_id_of_split hsplit]
  obtain ⟨id, hid⟩ := exists_id_of_insert (by rw [hidOr]; exact jsonForm_idOr hfields) hprepare hrequired
  refine ⟨id, _, hrows, not_isNamed_of_checkUnique hid hunique, rfl, ?_, holds_of_prepare (owner_recordFields parts) hprepare,
    cell?_attributes_of_insert hsplit hfields hprepare, areForms_attributesOf hfields⟩
  unfold Row.holds
  rw [hid]
  exact beq_self_eq_true id

/-! ## What a change makes of a record -/

theorem isMadeTo_iff : isMadeTo t tenant id (a, .ok true) ↔ a.table = t ∧ a.tenant = tenant ∧ a.id = id := by
  simp [isMadeTo, and_assoc]

namespace IsRecord

/-- A change that the row is a target of is addressed to the record. -/
theorem of_target (h : IsRecord t tenant id stored before row db)
    (htarget : row.relation == .records a.table && isLive a.tenant a.id row) : a.table = t ∧ a.tenant = tenant ∧ a.id = id := by
  obtain ⟨hrelation, hlive⟩ := Bool.and_eq_true_iff.mp htarget
  obtain ⟨hid, howner⟩ := Bool.and_eq_true_iff.mp (Bool.and_eq_true_iff.mp hlive).1
  have htable : Relation.records a.table = .records t := (eq_of_beq hrelation).symm.trans h.relation
  exact ⟨Relation.records.inj htable, Row.eq_of_holds howner h.owner, Row.eq_of_holds hid h.id⟩

/-- No other row is a target of a change that is addressed to the record. -/
theorem eq_of_target (h : IsRecord t tenant id stored before row db) {first : Row} (hmem : first ∈ db.rows)
    (htarget : first.relation == .records t && isLive tenant id first) : first = row := by
  rw [h.rows] at hmem
  obtain hmem | hmem := List.mem_append.mp hmem
  · obtain ⟨hrelation, hlive⟩ := Bool.and_eq_true_iff.mp htarget
    have hid := (Bool.and_eq_true_iff.mp (Bool.and_eq_true_iff.mp hlive).1).1
    exact absurd (Bool.and_eq_true_iff.mpr ⟨hrelation, hid⟩) (Bool.eq_false_iff.mp (h.alone first hmem))
  · exact List.mem_singleton.mp hmem

/-- A record stays one when rows are changed within a tenant. -/
theorem map (h : IsRecord t tenant id stored before row db) {owner : String} {change : Row → Row} {stored' : Fields}
    (hkept : ∀ row : Row, row.Kept owner (change row)) (hrows : db'.rows = db.rows.map change)
    (hattributes : (change row).cell? Database.attributes = some (.value stored'.kept)) (hforms : stored'.AreForms) :
    IsRecord t tenant id stored' (before.map change) (change row) db' where
  rows := by rw [hrows, h.rows, List.map_append]; rfl
  alone other hother := by
    obtain ⟨other, hmem, rfl⟩ := List.mem_map.mp hother
    rw [(hkept other).isNamed]
    exact h.alone other hmem
  relation := (hkept row).relation.trans h.relation
  id := by
    unfold Row.holds Row.value
    rw [(hkept row).id]
    exact h.id
  owner := ((hkept row).holds tenant).trans h.owner
  attributes := hattributes
  forms := hforms

/-- What a change that succeeds makes of a record it is addressed to. -/
theorem update (h : IsRecord t tenant id stored before row db) (hfields : fields.AreForms)
    (hupdate : db.updateRecord t tenant id fields = .ok (true, db')) :
    ∃ before' row', before'.length = before.length ∧
      IsRecord t tenant id (stored.settle (attributesOf t fields)) before' row' db' ∧
      row.Keeps (fun name => (fields.get? name).isSome) row' := by
  obtain ⟨parts, hsplit, ⟨hfound, -⟩ | ⟨-, first, hfirst, hchange⟩⟩ := updateRecord_cases hupdate
  · cases hfound
  obtain ⟨hmem, htarget⟩ := List.mem_filter.mp (List.mem_of_mem_head? hfirst)
  obtain rfl := h.eq_of_target hmem htarget
  have hsettled := get?_attributes_of_stored h.attributes (get?_attributes_of_split hsplit)
  rw [extra_of_split hsplit] at hsettled
  obtain ⟨hnil, rfl⟩ | ⟨slots, hprepare, hrows⟩ := hchange
  · obtain ⟨-, hstored⟩ | ⟨hsome, -⟩ := hsettled
    · rw [hstored]
      exact ⟨before, first, rfl, h, .refl _ _⟩
    · rw [hnil] at hsome
      cases hsome
  · have hlive (other : Row) (hother : isLive tenant id other) : other.holds "tenant_id" tenant :=
      isOf_holds (Bool.and_eq_true_iff.mp hother).1
    have hkept := kept_of_prepare hlive (recordChanges_eq_none (.inl rfl)) (recordChanges_eq_none (.inr rfl)) hprepare
    have hrow : (if first.relation == .records t && isLive tenant id first then first.setAll slots.cells else first) =
        first.setAll slots.cells := if_pos htarget
    have hattributes : (first.setAll slots.cells).cell? Database.attributes =
        some (.value (stored.settle (attributesOf t fields)).kept) := by
      obtain ⟨hnone, hstored⟩ | ⟨hsome, hvalue⟩ := hsettled
      · rw [cell?_of_not_changed hprepare hnone (by decide), hstored]
        exact h.attributes
      · have hforms := h.forms.settle (areForms_attributesOf (t := t) hfields).form
        have hlookup := lookup_of_change hprepare (attributes_column t) hsome fun s hs => cell_of_json hforms.jsonForm_toValue hs
        rw [Row.cell?_setAll, h.attributes, hlookup, hvalue]
        rfl
    refine ⟨_, _, List.length_map _, h.map hkept hrows (by rw [hrow]; exact hattributes)
      (h.forms.settle (areForms_attributesOf hfields).form), (hkept first).id, (hkept first).owner, fun name hne htime hnamed => ?_⟩
    rw [hrow]
    exact cell?_of_not_changed hprepare
      (get?_recordChanges_eq_none hne (get?_of_split_eq_none hsplit (Option.not_isSome_iff_eq_none.mp hnamed))) htime first

/-- What a change that is addressed to another record makes of this one: nothing. -/
theorem update_other (h : IsRecord t tenant id stored before row db) (hother : ¬ (a.table = t ∧ a.tenant = tenant ∧ a.id = id))
    {found : Bool} (hupdate : db.updateRecord a.table a.tenant a.id a.fields = .ok (found, db')) :
    ∃ before', before'.length = before.length ∧ IsRecord t tenant id stored before' row db' := by
  obtain ⟨parts, hsplit, ⟨-, -, rfl⟩ | ⟨-, first, hfirst, ⟨-, rfl⟩ | ⟨slots, hprepare, hrows⟩⟩⟩ := updateRecord_cases hupdate
  · exact ⟨before, rfl, h⟩
  · exact ⟨before, rfl, h⟩
  · have hlive (row : Row) (hrow : isLive a.tenant a.id row) : row.holds "tenant_id" a.tenant :=
      isOf_holds (Bool.and_eq_true_iff.mp hrow).1
    have hkept := kept_of_prepare hlive (recordChanges_eq_none (.inl rfl)) (recordChanges_eq_none (.inr rfl)) hprepare
    have hrow : (if row.relation == .records a.table && isLive a.tenant a.id row then row.setAll slots.cells else row) = row :=
      if_neg fun htarget => hother (h.of_target htarget)
    have hrecord := h.map hkept hrows (by rw [hrow]; exact h.attributes) h.forms
    rw [hrow] at hrecord
    exact ⟨_, List.length_map _, hrecord⟩

/-- **What a change makes of a record**, whatever it is addressed to and however it ends. -/
theorem amend (h : IsRecord t tenant id stored before row db) (hfields : a.fields.AreForms) {answer : Except Failure Bool}
    (hamend : Database.amend a db = (answer, db')) : ∃ before' row', before'.length = before.length ∧
      IsRecord t tenant id (if isMadeTo t tenant id (a, answer) then stored.settle (attributesOf t a.fields) else stored)
        before' row' db' ∧ row.Keeps (fun name => isMadeTo t tenant id (a, answer) ∧ (a.fields.get? name).isSome) row' := by
  unfold Database.amend transacted at hamend
  split at hamend
  · next found db₁ hupdate =>
    cases hamend
    by_cases hmade : isMadeTo t tenant id (a, .ok found)
    · obtain rfl : found = true := by
        cases found with
        | true => rfl
        | false => simp [isMadeTo] at hmade
      obtain ⟨rfl, rfl, rfl⟩ := isMadeTo_iff.mp hmade
      obtain ⟨before', row', hlength, hrecord, hkeeps⟩ := h.update hfields hupdate
      rw [if_pos hmade]
      exact ⟨before', row', hlength, hrecord, hkeeps.id, hkeeps.owner, fun name hne htime hnamed =>
        hkeeps.columns name hne htime fun hsome => hnamed ⟨hmade, hsome⟩⟩
    · rw [if_neg hmade]
      have hsame : ∃ before', before'.length = before.length ∧ IsRecord t tenant id stored before' row db' := by
        cases found with
        | true => exact h.update_other (fun haddressed => hmade (isMadeTo_iff.mpr haddressed)) hupdate
        | false =>
          obtain ⟨-, -, ⟨-, -, rfl⟩ | ⟨hfound, -⟩⟩ := updateRecord_cases hupdate
          · exact ⟨before, rfl, h⟩
          · cases hfound
      obtain ⟨before', hlength, hrecord⟩ := hsame
      exact ⟨before', row, hlength, hrecord, .refl _ _⟩
  · cases hamend
    exact ⟨before, row, rfl, by simpa [isMadeTo] using h, .refl _ _⟩

end IsRecord

/-! ## Histories -/

/-- A change that raises, or that finds nothing, leaves the database as it was. -/
theorem amend_eq_self {answer : Except Failure Bool} (h : amend a db = (answer, db')) (hanswer : answer ≠ .ok true) : db' = db := by
  unfold amend transacted at h
  split at h
  · next found _ hupdate =>
    cases h
    obtain ⟨-, -, ⟨-, -, rfl⟩ | ⟨rfl, -⟩⟩ := updateRecord_cases hupdate
    · rfl
    · exact absurd rfl hanswer
  · cases h
    rfl

theorem amendAll_cons {rest : List Amendment} {history : List Amended} (h : amendAll (a :: rest) db = (history, db')) :
    ∃ answer db₁ later, amend a db = (answer, db₁) ∧ amendAll rest db₁ = (later, db') ∧ history = (a, answer) :: later := by
  cases h
  exact ⟨_, _, _, rfl, rfl, rfl⟩

theorem writtenTo_cons (p : Amended) (later : List Amended) : writtenTo t tenant id (p :: later) =
    (if isMadeTo t tenant id p then [attributesOf t p.1.fields] else []) ++ writtenTo t tenant id later := by
  unfold writtenTo
  rw [List.filter_cons]
  split <;> rfl

theorem settle_if (made : Bool) (written : List Fields) (fs : Fields) :
    (if made then (Fields.settleAll written).settle fs else Fields.settleAll written) =
      Fields.settleAll (written ++ if made then [fs] else []) := by
  cases made with
  | true => exact (Fields.settleAll_concat written fs).symm
  | false => exact congrArg Fields.settleAll (List.append_nil written).symm

/-- **A record through a history** settles what is written among its attributes, and keeps all that is not named. -/
theorem IsRecord.amendAll {written : List Fields} {amendments : List Amendment} {history : List Amended}
    (h : IsRecord t tenant id (Fields.settleAll written) before row db) (hforms : ∀ a ∈ amendments, a.fields.AreForms)
    (hrun : Database.amendAll amendments db = (history, db')) : ∃ before' row', before'.length = before.length ∧
      IsRecord t tenant id (Fields.settleAll (written ++ writtenTo t tenant id history)) before' row' db' ∧
      row.Keeps (fun name => ∃ p ∈ history, isMadeTo t tenant id p ∧ (p.1.fields.get? name).isSome) row' ∧
      ∀ fs ∈ writtenTo t tenant id history, fs.AreForms := by
  induction amendments generalizing written before row db history with
  | nil =>
    cases hrun
    exact ⟨before, row, rfl, by rw [writtenTo, List.filter_nil, List.map_nil, List.append_nil]; exact h, .refl _ _,
      List.forall_mem_nil _⟩
  | cons a rest ih =>
    obtain ⟨ha, hrest⟩ := List.forall_mem_cons.mp hforms
    obtain ⟨answer, db₁, later, hamend, hlater, rfl⟩ := amendAll_cons hrun
    obtain ⟨before₁, row₁, hlength, hrecord, hkeeps⟩ := h.amend ha hamend
    rw [settle_if] at hrecord
    obtain ⟨before', row', hlength', hrecord', hkeeps', hlater⟩ := ih hrecord hrest hlater
    rw [List.append_assoc, ← writtenTo_cons] at hrecord'
    refine ⟨before', row', hlength'.trans hlength, hrecord', (hkeeps.mono fun name hnamed => ?_).trans (hkeeps'.mono ?_), ?_⟩
    · exact ⟨_, List.mem_cons_self, hnamed⟩
    · rintro name ⟨p, hp, hnamed⟩
      exact ⟨p, List.mem_cons_of_mem _ hp, hnamed⟩
    · rw [writtenTo_cons]
      refine List.forall_mem_append.mpr ⟨fun fs hfs => ?_, hlater⟩
      split at hfs
      · obtain rfl := List.mem_singleton.mp hfs
        exact areForms_attributesOf ha
      · cases hfs

/-- **The attributes of a record after any history.** They are what was written among them, settled: the fields of the merge of
all that was written, in its order, each with the value of the merge or one that equals it, and the merge itself where no equal
values of different kinds meet. None of them is lost. Of the rest of the row a history leaves what it does not name, but for the time
of the change, and the id and the owner in any case. A record that is refused adds no row, and a change that fails or finds nothing
leaves all rows as they are. -/
theorem attributes_of_history {db₁ db₂ : Database} {record : Fields} {result : Except Failure Unit} {amendments : List Amendment}
    {history : List Amended} (hrecord : record.AreForms) (hinsert : db.insertRecord t tenant record = (result, db₁))
    (hforms : ∀ a ∈ amendments, a.fields.AreForms) (hrun : amendAll amendments db₁ = (history, db₂)) :
    (∀ f, result = .error f → db₁.rows = db.rows) ∧
    (result = .ok () → ∃ id row before row', db₁.rows = db.rows ++ [row] ∧ row.holds "id" id ∧ row.holds "tenant_id" tenant ∧
      db₂.rows = before ++ [row'] ∧ before.length = db.rows.length ∧
      (let written := attributesOf t record :: writtenTo t tenant id history
      row'.cell? attributes = some (.value (Fields.settleAll written).kept) ∧
        (Fields.settleAll written).StandsFor (Fields.mergeAll written) ∧
        (Fields.AreExact written → Fields.settleAll written = Fields.mergeAll written) ∧
        ∀ fs ∈ written, ∀ name ∈ fs.map Prod.fst, name ∈ (Fields.settleAll written).map Prod.fst) ∧
      row.Keeps (fun name => ∃ p ∈ history, isMadeTo t tenant id p ∧ (p.1.fields.get? name).isSome) row') ∧
    ∀ a answer db₃, amend a db₂ = (answer, db₃) → answer ≠ .ok true → db₃ = db₂ := by
  refine ⟨?_, ?_, fun _ _ _ => amend_eq_self⟩
  · rintro f rfl
    obtain ⟨-, -, hrows⟩ | ⟨hok, -⟩ := insertRecord_cases hinsert
    · exact hrows
    · cases hok
  · rintro rfl
    obtain ⟨id, row, hadded⟩ := isRecord_of_insertRecord hrecord hinsert
    have hattributes := areForms_attributesOf (t := t) hrecord
    have hfirst : IsRecord t tenant id (Fields.settleAll [attributesOf t record]) db.rows row db₁ := by
      rw [Fields.settleAll_singleton hattributes]
      exact hadded
    obtain ⟨before, row', hlength, hlast, hkeeps, hwritten⟩ := hfirst.amendAll hforms hrun
    have hall : ∀ fs ∈ attributesOf t record :: writtenTo t tenant id history, fs.AreForms :=
      List.forall_mem_cons.mpr ⟨hattributes, hwritten⟩
    exact ⟨id, row, before, row', hadded.rows, hadded.id, hadded.owner, hlast.rows, hlength,
      ⟨hlast.attributes, Fields.standsFor_settleAll hall, Fields.settleAll_eq_mergeAll hall,
        fun _ hfs _ => Fields.mem_names_settleAll hall hfs⟩, hkeeps⟩

/-- A flag that is set to 1 and then to true stays 1, though the change is answered as made. -/
theorem attributes_of_history_of_a_flag : ∃ db₁ db₂ : Database,
    insertRecord {} .suppliers "t1" [("id", .str "x"), ("flag", .int 1)] = (.ok (), db₁) ∧
    amendAll [⟨.suppliers, "t1", "x", [("flag", .bool true)]⟩] db₁ = ([(⟨.suppliers, "t1", "x", [("flag", .bool true)]⟩, .ok true)], db₂) ∧
    ∃ row ∈ db₂.rows, row.cell? attributes = some (.value (.dict [(.str "flag", .int 1)])) := by
  let record : Fields := [("id", .str "x"), ("flag", .int 1)]
  let a : Amendment := ⟨.suppliers, "t1", "x", [("flag", .bool true)]⟩
  have hrecord : record.AreForms := ⟨by decide, by simp [record, Value.jsonForm]⟩
  have ha : a.fields.AreForms := ⟨by decide, by simp [a, Value.jsonForm]⟩
  have hok : (insertRecord {} .suppliers "t1" record).1 = .ok () := toOption_eq_some.mp (by decide +kernel)
  generalize hdb : (insertRecord {} .suppliers "t1" record).2 = db₁
  have hinsert : insertRecord {} .suppliers "t1" record = (.ok (), db₁) := Prod.ext hok hdb
  have hmade : (amend a db₁).1 = .ok true := toOption_eq_some.mp (by rw [← hdb]; decide +kernel)
  have hrun : amendAll [a] db₁ = ([(a, .ok true)], (amend a db₁).2) := by rw [← hmade]; rfl
  obtain ⟨-, hattributes, -⟩ := attributes_of_history hrecord hinsert (List.forall_mem_singleton.mpr ha) hrun
  obtain ⟨id, row, before, row', hrows, hid, -, hrows', -, ⟨hcell, -⟩, -⟩ := hattributes rfl
  have hx : row.holds "id" "x" := by
    have hall : ∀ row ∈ db₁.rows, row.holds "id" "x" := by rw [← hdb]; decide +kernel
    exact hall row (hrows ▸ List.mem_append_right _ (List.mem_singleton_self row))
  obtain rfl := Row.eq_of_holds hx hid
  have hsettled : Fields.settleAll [[("flag", .int 1)], [("flag", .bool true)]] = [("flag", .int 1)] := by
    have halike : (Fields.toValue [("flag", .bool true)]).Alike (Fields.toValue [("flag", .int 1)]) := by decide +kernel
    have hform : Fields.AreForms [("flag", .int 1)] := ⟨by decide, by simp [Value.jsonForm]⟩
    refine (Fields.settleAll_concat [[("flag", .int 1)]] [("flag", .bool true)]).trans ?_
    rw [Fields.settleAll_singleton hform]
    obtain ⟨-, heq⟩ | ⟨hunlike, -⟩ := Fields.settle_cases [("flag", .int 1)] [("flag", .bool true)]
    · exact heq
    · exact absurd halike hunlike
  refine ⟨db₁, _, hinsert, hrun, row', hrows' ▸ List.mem_append_right _ (List.mem_singleton_self row'), hcell.trans ?_⟩
  show some (Cell.value (Fields.kept (Fields.settleAll [[("flag", .int 1)], [("flag", .bool true)]]))) = _
  rw [hsettled]
  rfl

end Database

end Runbook
