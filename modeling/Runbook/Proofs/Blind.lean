import Runbook.Proofs.Cells

/-!
# Statements that see one tenant only

Every statement of the stores is made for a tenant. What it answers, and what it does to the rows of the tenant, would be the same
without the rows of other tenants, but for one thing: the ids of a table are shared, so a row that is added under an id fails if
the id is taken, by whomever. A tenant therefore sees its own rows, and of some ids whether another tenant has them. Where a
statement adds a row under an id that was just given out, or under one of those, it is enough what the tenant sees.

* `Database.seenBy`: what a tenant sees of the database.
* `Database.IsFair`: the databases that come about within the tenant, from one in which no other tenant has an id that is still to
  be given out.
* **`Database.insert_blind`**, **`Database.change_blind`**: what a tenant sees is enough to add a row under a known id, and to
  change rows.
* `Database.workflow?_blind`, `Database.create_blind`, `Database.record_blind`, `Database.update_blind`,
  `Database.insertRecord_blind`, `Database.updateRecord_blind`: the statements of the stores.
* `Database.insertRecord_of_taken`: the one thing that is told of other tenants.
-/

namespace Runbook

/-- The text that a column of texts keeps a value as, if it is one. -/
def Value.keptText? (v : Value) : Option String :=
  match Column.Kind.text.keep v with
  | .str s => some s
  | _ => none

namespace Fields

/-- The text that the id of a record is kept as, if its fields give it one. -/
def idText? (fields : Fields) : Option String := (fields.get? "id").bind Value.keptText?

/-- The id of a record, this one if its fields give it none. -/
def idOr (fresh : String) (fields : Fields) : Value :=
  match fields.get? "id" with
  | none | some .null => .str fresh
  | some v => v

theorem keep_idOr {fields : Fields} {fresh id : String} (h : fields.idText? = some id) :
    Column.Kind.text.keep (fields.idOr fresh) = .str id := by
  obtain ⟨v, hv, hkept⟩ := Option.bind_eq_some_iff.mp h
  have hkeep : Column.Kind.text.keep v = .str id := by
    unfold Value.keptText? at hkept
    split at hkept
    · next s hs =>
      cases hkept
      exact hs
    · cases hkept
  unfold idOr
  rw [hv]
  cases v with
  | null => cases hkeep
  | _ => exact hkeep

theorem idText?_of_keep_idOr {fields : Fields} {fresh id : String} (h : Column.Kind.text.keep (fields.idOr fresh) = .str id) :
    fields.idText? = some id ∨ id = fresh ∧ (fields.get? "id" = none ∨ fields.get? "id" = some .null) := by
  unfold idOr at h
  split at h
  · next hnone =>
    cases h
    exact .inr ⟨rfl, .inl hnone⟩
  · next hnull =>
    cases h
    exact .inr ⟨rfl, .inr hnull⟩
  · next v _ hv =>
    refine .inl ?_
    unfold idText? Value.keptText?
    rw [hv, Option.bind_some, h]

end Fields

namespace Database

/-! ## What a tenant sees -/

/-- The id that is given out as the `n`-th. -/
def nthId (n : Nat) : String := "uuid-" ++ String.ofList (Digits.ofNat n)

/-- The rows of a tenant. -/
def rowsOf (tenant : String) (db : Database) : List Row := db.rows.filter (·.holds "tenant_id" tenant)

/-- Whether a row of another tenant has this id in a table. -/
def isTaken (tenant : String) (db : Database) (p : Table × String) : Bool :=
  db.rows.any fun row => row.isNamed (.records p.1) p.2 && !row.holds "tenant_id" tenant

/-- All that is seen of a row of another tenant. -/
def stub (p : Table × String) : Row := ⟨.records p.1, [("id", .value (.str p.2))]⟩

/-- What a tenant sees of the database: its own rows, and which of these ids other tenants have. -/
def seenBy (tenant : String) (named : List (Table × String)) (db : Database) : Database where
  rows := (named.filter (db.isTaken tenant)).map stub ++ db.rowsOf tenant
  issued := db.issued

/-- A database in which other tenants have no id that was given out since it was another one, and in which the workflows of the
tenant are still the same. -/
structure IsFair (tenant : String) (origin db : Database) : Prop where
  issued : origin.issued ≤ db.issued
  fresh : ∀ row ∈ db.rows, row.holds "tenant_id" tenant = false → ∀ n > origin.issued, row.holds "id" (nthId n) = false
  workflows : ∀ id, db.workflow? tenant id = origin.workflow? tenant id

/-- An id that was given out since, or one of these. -/
def IsKnown (named : List (Table × String)) (origin : Database) (r : Relation) (id : String) : Prop :=
  (∃ n > origin.issued, id = nthId n) ∨ ∃ p ∈ named, r = .records p.1 ∧ id = p.2

variable {tenant : String} {named : List (Table × String)} {origin db db' : Database} {r : Relation} {fields : Fields}

theorem isNamed_stub {p : Table × String} {id : String} : (stub p).isNamed r id ↔ Relation.records p.1 = r ∧ p.2 = id := by
  show (Relation.records p.1 == r && (p.2 == id)) = true ↔ _
  rw [Bool.and_eq_true, beq_iff_eq, beq_iff_eq]

/-- What is taken is named by a row of another tenant. -/
theorem isTaken_iff {p : Table × String} : db.isTaken tenant p ↔
    ∃ row ∈ db.rows, row.isNamed (.records p.1) p.2 ∧ row.holds "tenant_id" tenant = false := by
  rw [isTaken, List.any_eq_true]
  refine exists_congr fun row => and_congr_right fun _ => ?_
  rw [Bool.and_eq_true, Bool.not_eq_true']

/-- Whether an id is in use is seen, if the id is known. -/
theorem any_isNamed_seenBy (hfair : IsFair tenant origin db) {id : String} (hid : IsKnown named origin r id) :
    ((db.seenBy tenant named).rows.any fun row => row.isNamed r id) = db.rows.any fun row => row.isNamed r id := by
  rw [Bool.eq_iff_iff, List.any_eq_true, List.any_eq_true]
  constructor
  · rintro ⟨row, hrow, hnamed⟩
    obtain hrow | hrow := List.mem_append.mp hrow
    · obtain ⟨p, hp, rfl⟩ := List.mem_map.mp hrow
      obtain ⟨rfl, rfl⟩ := isNamed_stub.mp hnamed
      obtain ⟨row, hrow, hnamed, -⟩ := isTaken_iff.mp (List.mem_filter.mp hp).2
      exact ⟨row, hrow, hnamed⟩
    · exact ⟨row, (List.mem_filter.mp hrow).1, hnamed⟩
  · rintro ⟨row, hrow, hnamed⟩
    cases howner : row.holds "tenant_id" tenant with
    | true => exact ⟨row, List.mem_append_right _ (List.mem_filter.mpr ⟨hrow, howner⟩), hnamed⟩
    | false =>
      obtain ⟨n, hn, rfl⟩ | ⟨p, hp, rfl, rfl⟩ := hid
      · have hholds := (Bool.and_eq_true_iff.mp hnamed).2
        exact absurd hholds (Bool.eq_false_iff.mp (hfair.fresh row hrow howner n hn))
      · have htaken : db.isTaken tenant p := isTaken_iff.mpr ⟨row, hrow, hnamed, howner⟩
        exact ⟨stub p, List.mem_append_left _ (List.mem_map_of_mem (List.mem_filter.mpr ⟨hp, htaken⟩)),
          isNamed_stub.mpr ⟨rfl, rfl⟩⟩

theorem filter_stubs {P : Row → Bool} (hP : ∀ row, P row → row.holds "tenant_id" tenant) (ps : List (Table × String)) :
    (ps.map stub).filter P = [] := by
  refine List.filter_eq_nil_iff.mpr fun row hrow => ?_
  obtain ⟨p, -, rfl⟩ := List.mem_map.mp hrow
  exact fun h => Bool.false_ne_true (hP _ h)

/-- A tenant sees all of its rows. -/
theorem select_seenBy {selects : Row → Bool} (h : ∀ row, selects row → row.holds "tenant_id" tenant) :
    (db.seenBy tenant named).select r selects = db.select r selects := by
  have hrow : ∀ row : Row, (row.relation == r && selects row) → row.holds "tenant_id" tenant :=
    fun row hrow => h row (Bool.and_eq_true_iff.mp hrow).2
  rw [select, seenBy, rowsOf, List.filter_append, filter_stubs hrow, List.filter_filter, List.nil_append]
  refine List.filter_congr fun row _ => ?_
  cases hselects : row.relation == r && selects row with
  | false => rfl
  | true => exact hrow row hselects

theorem rowsOf_seenBy : (db.seenBy tenant named).rowsOf tenant = db.rowsOf tenant := by
  rw [rowsOf, seenBy, List.filter_append, filter_stubs fun _ h => h, List.nil_append, rowsOf, List.filter_filter]
  simp only [Bool.and_self]

/-- A row of the tenant that is added is seen. -/
theorem seenBy_append {row : Row} (h : row.holds "tenant_id" tenant) :
    { db with rows := db.rows ++ [row] }.seenBy tenant named =
      { db.seenBy tenant named with rows := (db.seenBy tenant named).rows ++ [row] } := by
  have htaken : isTaken tenant { db with rows := db.rows ++ [row] } = db.isTaken tenant := by
    funext p
    rw [isTaken, List.any_append, List.any_cons, h]
    simp [isTaken]
  rw [seenBy, htaken]
  simp [seenBy, rowsOf, h]

/-- So are rows of the tenant that are changed. -/
theorem seenBy_map {keep : Row → Row} (h : ∀ row : Row, row.Kept tenant (keep row)) :
    { db with rows := db.rows.map keep }.seenBy tenant named =
      { db.seenBy tenant named with rows := (db.seenBy tenant named).rows.map keep } := by
  have htaken : isTaken tenant { db with rows := db.rows.map keep } = db.isTaken tenant := by
    funext p
    rw [isTaken, List.any_map]
    refine congrArg (db.rows.any ·) (funext fun row => ?_)
    rw [Function.comp_apply, (h row).isNamed, (h row).holds]
  have hstub (p : Table × String) : keep (stub p) = stub p := (h (stub p)).foreign rfl
  have hkeep : (fun row => Row.holds row "tenant_id" tenant) ∘ keep = fun row => row.holds "tenant_id" tenant :=
    funext fun row => (h row).holds tenant
  rw [seenBy, htaken]
  simp only [seenBy, rowsOf, List.map_append, List.map_map, List.filter_map, hkeep, Function.comp_def, hstub]

/-! ## What becomes of a database -/

theorem IsFair.of_within (hfair : IsFair tenant origin db) (hwithin : db.Within tenant db') (hissued : db.issued ≤ db'.issued)
    (hworkflows : ∀ id, db'.workflow? tenant id = db.workflow? tenant id) : IsFair tenant origin db' where
  issued := Nat.le_trans hfair.issued hissued
  workflows id := (hworkflows id).trans (hfair.workflows id)
  fresh := by
    obtain ⟨keep, added, hrows, hkeep, hadded⟩ := hwithin
    rw [hrows]
    intro row hrow howner n hn
    obtain hrow | hrow := List.mem_append.mp hrow
    · obtain ⟨row, hmem, rfl⟩ := List.mem_map.mp hrow
      rw [(hkeep row).holds] at howner
      rw [(hkeep row).foreign howner]
      exact hfair.fresh row hmem howner n hn
    · exact absurd (hadded row hrow) (Bool.eq_false_iff.mp howner)

/-- A statement to which it is enough what the tenant sees, with such answers. -/
def IsBlind {α : Type} (tenant : String) (named : List (Table × String)) (origin : Database) (P : α → Prop)
    (f : Database → α × Database) : Prop :=
  ∀ db, IsFair tenant origin db → IsFair tenant origin (f db).2 ∧
    f (db.seenBy tenant named) = ((f db).1, (f db).2.seenBy tenant named) ∧ P (f db).1

theorem workflow?_of_select {id : String}
    (h : db'.select .workflows (·.isOf tenant id) = db.select .workflows (·.isOf tenant id)) :
    db'.workflow? tenant id = db.workflow? tenant id := by
  rw [workflow?, workflow?, find?, find?, h]

/-! ## Rows are added -/

/-- The columns of ids. -/
theorem id_columns (r : Relation) : (∃ c ∈ r.columns, c.name = "id") ∧
    ∀ c ∈ r.columns, c.name = "id" → c.kind = .text ∧ c.default matches .freshId := by
  cases r with
  | records t => cases t <;> decide
  | _ => decide

theorem freshId_columns (r : Relation) : ∀ c ∈ r.columns, c.default matches .freshId → c.name = "id" := by
  cases r with
  | records t => cases t <;> decide
  | _ => decide

theorem slot_id {fresh : String} {c : Column} (hc : c ∈ r.columns) (hname : c.name = "id") :
    slot fresh fields c = .given (fields.idOr fresh) := by
  obtain ⟨hkind, hdefault⟩ := (id_columns r).2 c hc hname
  have hjson : c.kind ≠ .json := hkind ▸ nofun
  unfold slot given? Fields.idOr
  rw [hname]
  cases hv : fields.get? "id" with
  | none =>
    split at hdefault
    · next hfresh => rw [hfresh]
    · cases hdefault
  | some v =>
    cases v with
    | null =>
      rw [if_neg hjson]
      split at hdefault
      · next hfresh => rw [hfresh]
      · cases hdefault
    | _ => rfl

/-- The id of a row that is added. -/
theorem value_id {fresh : String} {slots : Slots}
    (h : Slots.prepare (r.columns.map fun c => (c, slot fresh fields c)) = .ok slots) :
    (⟨r, slots.cells⟩ : Row).value "id" = Column.Kind.text.keep (fields.idOr fresh) := by
  have hid : slots.cells.lookup "id" = some (.value (Column.Kind.text.keep (fields.idOr fresh))) := by
    refine Slots.lookup_cells h ?_ fun p hp hname => ?_
    · obtain ⟨c, hc, hname⟩ := (id_columns r).1
      exact ⟨_, List.mem_map_of_mem hc, hname⟩
    · obtain ⟨c, hc, rfl⟩ := List.mem_map.mp hp
      exact ⟨((id_columns r).2 c hc hname).1, slot_id hc hname⟩
  unfold Row.value Row.cell?
  rw [hid]
  rfl

/-- A row that needs no fresh id is given an id. -/
theorem get?_id_of_any (h : (r.columns.any fun c => c.default matches .freshId && (given? fields c).isNone) = false) :
    ¬(fields.get? "id" = none ∨ fields.get? "id" = some .null) := by
  obtain ⟨c, hc, hname⟩ := (id_columns r).1
  obtain ⟨hkind, hdefault⟩ := (id_columns r).2 c hc hname
  have hjson : c.kind ≠ .json := hkind ▸ nofun
  have hgiven := List.any_eq_false.mp h c hc
  intro hnone
  have hnull : given? fields c = none := by
    unfold given?
    rw [hname]
    obtain hv | hv := hnone
    · rw [hv]
    · rw [hv]
      exact if_neg hjson
  rw [hnull, hdefault] at hgiven
  exact hgiven rfl

/-- A row that is given an id needs no fresh one. -/
theorem any_eq_false_of_id {v : Value} (hv : fields.get? "id" = some v) (hnull : v ≠ .null) :
    (r.columns.any fun c => c.default matches .freshId && (given? fields c).isNone) = false := by
  refine List.any_eq_false.mpr fun c hc h => ?_
  obtain ⟨hdefault, hnone⟩ := Bool.and_eq_true_iff.mp h
  have hname := freshId_columns r c hc hdefault
  unfold given? at hnone
  rw [hname, hv] at hnone
  cases v with
  | null => exact hnull rfl
  | _ => cases hnone

/-- Whether an id is in use, is seen by the statement that adds a row under it. -/
theorem checkUnique_seenBy (hfair : IsFair tenant origin db) {row : Row}
    (hid : ∀ id, row.value "id" = .str id → IsKnown named origin r id) :
    (db.seenBy tenant named).checkUnique r row = db.checkUnique r row := by
  unfold checkUnique
  split
  · next id h =>
    have hany := any_isNamed_seenBy hfair (hid id h)
    unfold Row.isNamed at hany
    rw [hany]
  · rfl

theorem insertSlots_seenBy (hfair : IsFair tenant origin db) {slots : Slots} (howner : ∀ slots', slots.prepare = .ok slots' →
    (⟨r, slots'.cells⟩ : Row).holds "tenant_id" tenant) (hid : ∀ slots', slots.prepare = .ok slots' →
    ∀ id, (⟨r, slots'.cells⟩ : Row).value "id" = .str id → IsKnown named origin r id) :
    (db.seenBy tenant named).insertSlots r slots = (db.insertSlots r slots).map (seenBy tenant named) := by
  unfold insertSlots
  cases hprepare : slots.prepare with
  | error f => rfl
  | ok slots' =>
    cases hrequired : checkRequired r slots' with
    | error f =>
      simp only [bind, Except.bind, hrequired]
      rfl
    | ok _ =>
      simp only [bind, Except.bind, hrequired, checkUnique_seenBy hfair (hid slots' hprepare)]
      cases db.checkUnique r ⟨r, slots'.cells⟩ with
      | error f => rfl
      | ok _ =>
        rw [← seenBy_append (howner slots' hprepare)]
        rfl

theorem rows_of_insertSlots {slots : Slots} (h : db.insertSlots r slots = .ok db') :
    ∃ row : Row, row.relation = r ∧ db' = { db with rows := db.rows ++ [row] } := by
  obtain ⟨slots, -, h⟩ := bind_eq_ok h
  obtain ⟨-, -, h⟩ := bind_eq_ok h
  obtain ⟨-, -, h⟩ := bind_eq_ok h
  cases h
  exact ⟨_, rfl, rfl⟩

/-- Rows that are added to other tables change no workflow. -/
theorem workflow?_append {row : Row} (h : row.relation ≠ .workflows) (id : String) :
    ({ db with rows := db.rows ++ [row] } : Database).workflow? tenant id = db.workflow? tenant id := by
  refine workflow?_of_select ?_
  have hne : (row.relation == Relation.workflows) = false := beq_false_of_ne h
  rw [select, List.filter_append, List.filter_cons, hne, Bool.false_and]
  exact List.append_nil _

/-- A statement of the tenant that adds a row is blind, if the id of the row is known. -/
theorem insertSlots_blind {fresh : String} (howner : fields.get? "tenant_id" = some (.str tenant)) (hr : r ≠ .workflows)
    (hid : ∀ id, Column.Kind.text.keep (fields.idOr fresh) = .str id → IsKnown named origin r id) :
    IsBlind tenant named origin (fun _ => True) fun db =>
      db.orUnchanged (db.insertSlots r (r.columns.map fun c => (c, slot fresh fields c))) := by
  intro db hfair
  have hseen := insertSlots_seenBy hfair (fun _ hprepare => holds_of_prepare howner hprepare)
    fun _ hprepare id h => hid id ((value_id hprepare).symm.trans h)
  dsimp only
  rw [hseen]
  cases hinsert : db.insertSlots r (r.columns.map fun c => (c, slot fresh fields c)) with
  | error f => exact ⟨hfair, rfl, trivial⟩
  | ok db' =>
    obtain ⟨row, rfl, rfl⟩ := rows_of_insertSlots hinsert
    exact ⟨hfair.of_within (insertSlots_within howner hinsert) (Nat.le_refl _) (workflow?_append hr), rfl, trivial⟩

theorem IsFair.freshId (hfair : IsFair tenant origin db) : IsFair tenant origin db.freshId.2 :=
  hfair.of_within (within_freshId db) (Nat.le_succ _) fun _ => rfl

/-- An id that is given out is known. -/
theorem IsFair.isKnown_freshId (hfair : IsFair tenant origin db) : IsKnown named origin r db.freshId.1 :=
  .inl ⟨db.issued + 1, Nat.lt_succ_of_le hfair.issued, rfl⟩

/-- **A row that is added** for the tenant is added without a look at other rows than its own, if its id is known. -/
theorem insert_blind (howner : fields.get? "tenant_id" = some (.str tenant)) (hr : r ≠ .workflows)
    (hid : ∀ id ∈ fields.idText?, IsKnown named origin r id) :
    IsBlind tenant named origin (fun _ => True) (·.insert r fields) := by
  intro db hfair
  unfold insert
  cases hneeds : r.columns.any fun c => c.default matches .freshId && (given? fields c).isNone with
  | true =>
    refine insertSlots_blind howner hr (fun id h => ?_) db.freshId.2 hfair.freshId
    obtain hgiven | ⟨rfl, -⟩ := Fields.idText?_of_keep_idOr h
    · exact hid id hgiven
    · exact hfair.isKnown_freshId
  | false =>
    refine insertSlots_blind howner hr (fun id h => ?_) db hfair
    obtain hgiven | ⟨-, hnone⟩ := Fields.idText?_of_keep_idOr h
    · exact hid id hgiven
    · exact absurd hnone (get?_id_of_any hneeds)

/-- **A row under an id that is taken**, by whomever, is not added. -/
theorem insert_of_taken {row : Row} {id : String} (hid : fields.idText? = some id) (hrow : row ∈ db.rows)
    (hnamed : row.isNamed r id) :
    ∃ f, db.insert r fields = (.error f, db) := by
  obtain ⟨v, hv, hkept⟩ := Option.bind_eq_some_iff.mp hid
  have hnull : v ≠ .null := by
    rintro rfl
    cases hkept
  have hinsert : ∃ f, db.insertSlots r (r.columns.map fun c => (c, slot "" fields c)) = .error f := by
    cases hinsert : db.insertSlots r (r.columns.map fun c => (c, slot "" fields c)) with
    | error f => exact ⟨f, rfl⟩
    | ok db' =>
      obtain ⟨slots, hprepare, hinsert⟩ := bind_eq_ok hinsert
      obtain ⟨-, -, hinsert⟩ := bind_eq_ok hinsert
      obtain ⟨⟨⟩, hunique, -⟩ := bind_eq_ok hinsert
      have hfree := not_isNamed_of_checkUnique ((value_id hprepare).trans (Fields.keep_idOr hid)) hunique row hrow
      exact absurd hnamed (Bool.eq_false_iff.mp hfree)
  obtain ⟨f, hf⟩ := hinsert
  unfold insert
  cases hneeds : r.columns.any fun c => c.default matches .freshId && (given? fields c).isNone with
  | true => exact absurd hneeds (Bool.eq_false_iff.mp (any_eq_false_of_id hv hnull))
  | false => exact ⟨f, congrArg db.orUnchanged hf⟩

/-! ## Rows are changed -/

theorem any_seenBy {P : Row → Bool} (hP : ∀ row, P row → row.holds "tenant_id" tenant) :
    (db.seenBy tenant named).rows.any P = db.rows.any P := by
  have hstub : (((named.filter (db.isTaken tenant)).map stub).any P) = false := by
    refine List.any_eq_false.mpr fun row hrow h => ?_
    obtain ⟨p, -, rfl⟩ := List.mem_map.mp hrow
    exact Bool.false_ne_true (hP _ h)
  rw [seenBy, rowsOf, List.any_append, hstub, Bool.false_or, List.any_filter]
  refine congrArg (db.rows.any ·) (funext fun row => ?_)
  cases hrow : P row with
  | false => exact Bool.and_false _
  | true => exact (Bool.and_true _).trans (hP row hrow)

/-- Rows of other tables that are changed change no workflow. -/
theorem workflow?_map {keep : Row → Row} (hkept : ∀ row : Row, row.Kept tenant (keep row))
    (hkeep : ∀ row : Row, row.relation = .workflows → keep row = row) (id : String) :
    ({ db with rows := db.rows.map keep } : Database).workflow? tenant id = db.workflow? tenant id := by
  refine workflow?_of_select ?_
  unfold select
  induction db.rows with
  | nil => rfl
  | cons row rows ih =>
    by_cases hrow : row.relation = .workflows
    · rw [List.map_cons, hkeep row hrow, List.filter_cons, List.filter_cons, ih]
    · have hne : (row.relation == Relation.workflows) = false := beq_false_of_ne hrow
      have hne' : ((keep row).relation == Relation.workflows) = false := by rw [(hkept row).relation, hne]
      rw [List.map_cons, List.filter_cons, List.filter_cons, hne, hne', Bool.false_and, Bool.false_and]
      exact ih

theorem IsFair.map {keep : Row → Row} (hfair : IsFair tenant origin db) (hkept : ∀ row : Row, row.Kept tenant (keep row))
    (hkeep : ∀ row : Row, row.relation = .workflows → keep row = row) :
    IsFair tenant origin { db with rows := db.rows.map keep } :=
  hfair.of_within (.of_map hkept) (Nat.le_refl _) (workflow?_map hkept hkeep)

variable (named) in
/-- **A change** of rows of the tenant is made without a look at other rows than its own. -/
theorem change_blind {selects : Row → Bool} (hselects : ∀ row, selects row → row.holds "tenant_id" tenant) (hr : r ≠ .workflows)
    (hid : fields.get? "id" = none) (howner : fields.get? "tenant_id" = none) (hfair : IsFair tenant origin db) :
    (db.seenBy tenant named).change r selects fields = (db.change r selects fields).map (seenBy tenant named) ∧
      ∀ db', db.change r selects fields = .ok db' → IsFair tenant origin db' := by
  unfold change
  cases hprepare : (changedSlots r fields).prepare with
  | error f => exact ⟨rfl, nofun⟩
  | ok slots =>
    have hkept := kept_of_prepare (r := r) hselects hid howner hprepare
    have htarget (row : Row) (h : (row.relation == r && selects row) = true) : row.holds "tenant_id" tenant :=
      hselects row (Bool.and_eq_true_iff.mp h).2
    have hother (row : Row) (h : row.relation = .workflows) :
        (if row.relation == r && selects row then row.setAll slots.cells else row) = row := by
      rw [h, beq_false_of_ne (Ne.symm hr)]
      rfl
    have hchanged := hfair.map hkept hother
    simp only [bind, Except.bind, any_seenBy htarget]
    cases db.rows.any fun row => row.relation == r && selects row with
    | false => exact ⟨congrArg Except.ok (seenBy_map hkept).symm, fun _ h => Except.ok.inj h ▸ hchanged⟩
    | true =>
      cases checkRequired r slots with
      | error f => exact ⟨rfl, nofun⟩
      | ok _ => exact ⟨congrArg Except.ok (seenBy_map hkept).symm, fun _ h => Except.ok.inj h ▸ hchanged⟩

/-! ## The statements of the stores -/

theorem workflow?_blind {id : String} :
    IsBlind tenant named origin (fun result => result = origin.workflow? tenant id) fun db => (db.workflow? tenant id, db) := by
  intro db hfair
  have hseen : (db.seenBy tenant named).workflow? tenant id = db.workflow? tenant id :=
    workflow?_of_select (select_seenBy fun _ => isOf_holds)
  exact ⟨hfair, congrArg (·, db.seenBy tenant named) hseen, hfair.workflows id⟩

theorem freshId_blind : IsBlind (α := Except Failure String) tenant named origin
    (fun result => ∀ id, result = .ok id → ∀ r, IsKnown named origin r id) fun db => (.ok db.freshId.1, db.freshId.2) := by
  intro db hfair
  refine ⟨hfair.freshId, rfl, ?_⟩
  rintro _ ⟨⟩ r
  exact hfair.isKnown_freshId

variable (named) in
/-- A row that is added under a fresh id. -/
theorem insert_freshId_blind (howner : fields.get? "tenant_id" = some (.str tenant)) (hr : r ≠ .workflows)
    (hfair : IsFair tenant origin db) :
    IsFair tenant origin (db.freshId.2.insert r (("id", .str db.freshId.1) :: fields)).2 ∧
      (db.freshId.2.seenBy tenant named).insert r (("id", .str db.freshId.1) :: fields) =
        ((db.freshId.2.insert r (("id", .str db.freshId.1) :: fields)).1,
          (db.freshId.2.insert r (("id", .str db.freshId.1) :: fields)).2.seenBy tenant named) := by
  have howner' : Fields.get? (("id", .str db.freshId.1) :: fields) "tenant_id" = some (.str tenant) := howner
  have hknown : ∀ id ∈ Fields.idText? (("id", .str db.freshId.1) :: fields), IsKnown named origin r id := by
    rintro _ ⟨⟩
    exact hfair.isKnown_freshId
  obtain ⟨hfair', hseen, -⟩ := insert_blind howner' hr hknown db.freshId.2 hfair.freshId
  exact ⟨hfair', hseen⟩

/-- **A record** that is opened for the tenant. -/
theorem create_blind (howner : fields.get? "tenant_id" = some (.str tenant)) (hr : r ≠ .workflows) :
    IsBlind tenant named origin (fun _ => True) (·.create r fields) := by
  intro db hfair
  unfold create
  cases unknownNames r fields with
  | cons name names => exact ⟨hfair.freshId, rfl, trivial⟩
  | nil =>
    obtain ⟨hfair', hseen⟩ := insert_freshId_blind named howner hr hfair
    exact ⟨hfair', congrArg (fun p : Except Failure Unit × Database => (p.1.map fun _ => db.freshId.1, p.2)) hseen, trivial⟩

/-- **A notification** for the tenant. -/
theorem record_blind {recipient : Recipient} {payload : Payload} (h : recipient.tenant = tenant) :
    IsBlind tenant named origin (fun _ => True) (·.record recipient payload) := by
  intro db hfair
  obtain rfl := h
  have howner : Fields.get? (inboxFields recipient payload) "tenant_id" = some (.str recipient.tenant) := rfl
  have hr : Relation.notifications ≠ .workflows := nofun
  obtain ⟨hfair', hseen⟩ := insert_freshId_blind named howner hr hfair
  exact ⟨hfair', congrArg (fun p : Except Failure Unit × Database => (p.1.map fun _ => db.freshId.1, p.2)) hseen, trivial⟩

/-- **A record** that is changed for the tenant. -/
theorem update_blind {id : String} (hid : fields.get? "id" = none) (howner : fields.get? "tenant_id" = none) (hr : r ≠ .workflows)
    (hfair : IsFair tenant origin db) :
    (db.seenBy tenant named).update r tenant id fields = (db.update r tenant id fields).map (seenBy tenant named) ∧
      ∀ db', db.update r tenant id fields = .ok db' → IsFair tenant origin db' := by
  unfold update
  cases unknownNames r fields with
  | cons name names => exact ⟨rfl, nofun⟩
  | nil => exact change_blind named (fun _ => isOf_holds) hr hid howner hfair

/-- The id of a record that a workflow adds is the one that its fields give it. -/
theorem get?_id_of_split {t : Table} {parts : Parts} (h : split t fields = .ok parts) :
    parts.columns.get? "id" = fields.get? "id" := by
  obtain ⟨c, hc, hname⟩ := (id_columns (.records t)).1
  have hkind := ((id_columns _).2 c hc hname).1
  have hread (v : Value) : readFor c v = .ok v := by
    unfold readFor
    rw [hkind]
  have hsplit := get?_of_split (column?_eq_some.mpr ⟨hc, hname⟩) (by decide) h
  split at hsplit
  · next v hv =>
    obtain ⟨w, hw, hget⟩ := hsplit
    rw [hget, hv, ← Except.ok.inj ((hread v).symm.trans hw)]
  · next hnone => rw [hsplit, hnone]

theorem idText?_recordFields {parts : Parts} : (recordFields tenant parts).idText? = parts.columns.idText? := by
  unfold Fields.idText?
  rw [get?_recordFields (by decide) (by decide)]

/-- **A record of a workflow** that is added for the tenant, if its id is known. -/
theorem insertRecord_blind {t : Table} (hid : ∀ id ∈ fields.idText?, IsKnown named origin (.records t) id) :
    IsBlind tenant named origin (fun _ => True) (·.insertRecord t tenant fields) := by
  unfold insertRecord
  cases hsplit : split t fields with
  | error f => exact fun db hfair => ⟨hfair, rfl, trivial⟩
  | ok parts =>
    refine insert_blind (owner_recordFields parts) nofun fun id h => hid id ?_
    rw [idText?_recordFields, Fields.idText?, get?_id_of_split hsplit] at h
    exact h

/-- **An id that is taken**, by whomever, is told by the record that is to be added under it. -/
theorem insertRecord_of_taken {t : Table} {id : String} (hid : fields.idText? = some id) (htaken : db.isTaken tenant (t, id)) :
    ∃ f, db.insertRecord t tenant fields = (.error f, db) := by
  obtain ⟨row, hrow, hnamed, -⟩ := isTaken_iff.mp htaken
  unfold insertRecord
  cases hsplit : split t fields with
  | error f => exact ⟨f, rfl⟩
  | ok parts =>
    refine insert_of_taken ?_ hrow hnamed
    rw [idText?_recordFields, Fields.idText?, get?_id_of_split hsplit]
    exact hid

/-- **A record of a workflow** that is changed for the tenant. -/
theorem updateRecord_blind {t : Table} {id : String} (hfair : IsFair tenant origin db) :
    (db.seenBy tenant named).updateRecord t tenant id fields =
      (db.updateRecord t tenant id fields).map (Prod.map (fun found => found) (seenBy tenant named)) ∧
      ∀ found db', db.updateRecord t tenant id fields = .ok (found, db') → IsFair tenant origin db' := by
  have hlive (row : Row) (h : isLive tenant id row) : row.holds "tenant_id" tenant := isOf_holds (Bool.and_eq_true_iff.mp h).1
  unfold updateRecord
  cases split t fields with
  | error f => exact ⟨rfl, nofun⟩
  | ok parts =>
    simp only [bind, Except.bind, select_seenBy hlive]
    cases ((db.select (.records t) (isLive tenant id)).head?) with
    | none =>
      refine ⟨rfl, ?_⟩
      rintro _ _ ⟨⟩
      exact hfair
    | some row =>
      dsimp only
      split
      · refine ⟨rfl, ?_⟩
        rintro _ _ ⟨⟩
        exact hfair
      · have hr : Relation.records t ≠ .workflows := nofun
        have hid : (recordChanges row parts).get? "id" = none := recordChanges_eq_none (.inl rfl)
        have howner : (recordChanges row parts).get? "tenant_id" = none := recordChanges_eq_none (.inr rfl)
        obtain ⟨hseen, hchanged⟩ := change_blind named hlive hr hid howner hfair
        rw [hseen]
        cases hchange : db.change (.records t) (isLive tenant id) (recordChanges row parts) with
        | error f => exact ⟨rfl, nofun⟩
        | ok db' =>
          refine ⟨rfl, ?_⟩
          rintro _ _ ⟨⟩
          exact hchanged _ hchange

end Database

end Runbook
