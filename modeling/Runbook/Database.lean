import Runbook.Database.Relation

/-!
# The database

Rows of the relations, in the order in which they were inserted. A statement that fails writes nothing.

* `Database.insert`: adds a row; no two rows of a relation have one id.
* `Database.change`: sets columns of the rows that a condition selects.
* `Database.select`: the rows that a condition selects.
-/

namespace Runbook

/-- A row: the relation it is of and what its columns hold. -/
structure Row where
  relation : Relation
  cells : List (String × Cell)

/-- The rows, and how many ids were given out. -/
structure Database where
  rows : List Row := []
  issued : Nat := 0

namespace Row

/-- What a column holds. -/
def cell? (row : Row) (name : String) : Option Cell := row.cells.lookup name

/-- The value in a column, null if there is none. -/
def value (row : Row) (name : String) : Value := ((row.cell? name).bind Cell.value?).getD .null

/-- Whether a column holds this text. -/
def holds (row : Row) (name text : String) : Bool := (row.value name).isStr text

/-- Whether a row is the one of an id within a tenant. -/
def isOf (row : Row) (tenant id : String) : Bool := row.holds "id" id && row.holds "tenant_id" tenant

/-- A row with other contents of some columns. -/
def setAll (row : Row) (cells : List (String × Cell)) : Row :=
  { row with cells := row.cells.map fun (n, c) => (n, (cells.lookup n).getD c) }

end Row

/-- What a statement says about a column. -/
inductive Slot where
  | given (v : Value)
  | now
  | absent

namespace Slot

/-- A slot whose value is made fit for its column. -/
def convert (k : Column.Kind) : Slot → Except Failure Slot
  | given v => (k.convert v).map given
  | now => .ok now
  | absent => .ok absent

/-- What is read back of a slot with a fit value. -/
def cell (k : Column.Kind) : Slot → Cell
  | given v => .value (k.keep v)
  | now => .now
  | absent => .value .null

end Slot

/-- The columns that a statement names, in the order of the columns of the relation. -/
abbrev Slots := List (Column × Slot)

namespace Slots

/-- The slots with their values made fit. -/
def convert : Slots → Except Failure Slots
  | [] => .ok []
  | (c, s) :: rest => do
    let s ← s.convert c.kind
    let rest ← convert rest
    return (c, s) :: rest

/-- Refuses the first value that the database has no form for; values are counted from `place` on. -/
def accept (place : Nat) : Slots → Except Failure Unit
  | [] => .ok ()
  | (c, .given v) :: rest => do
    c.kind.accept place v
    accept (place + 1) rest
  | _ :: rest => accept place rest

/-- The contents that the slots give to their columns. -/
def cells (slots : Slots) : List (String × Cell) := slots.map fun (c, s) => (c.name, s.cell c.kind)

/-- The first required column that would be null. -/
def missing? (slots : Slots) : Option Column :=
  (slots.find? fun (c, s) => c.required && c.kind != .json && (match s.cell c.kind with
    | .value .null => true
    | _ => false)).map (·.1)

/-- The slots made fit, if the database has forms for all of them. -/
def prepare (slots : Slots) : Except Failure Slots := do
  let slots ← slots.convert
  slots.accept 1
  return slots

end Slots

namespace Database

/-! ## Ids and constraints -/

/-- An id that was not given out before. -/
def freshId (db : Database) : String × Database :=
  ("uuid-" ++ String.ofList (Digits.ofNat (db.issued + 1)), { db with issued := db.issued + 1 })

/-- A statement that the database refuses. -/
def refused (constraint : String) (r : Relation) (column : String) : Failure :=
  .database "IntegrityError"
    ("(sqlite3.IntegrityError) " ++ constraint ++ " constraint failed: " ++ r.title ++ "." ++ column)

/-- Refuses a row without a required value. -/
def checkRequired (r : Relation) (slots : Slots) : Except Failure Unit :=
  match slots.missing? with
  | some c => .error (refused "NOT NULL" r c.name)
  | none => .ok ()

/-- Refuses a row whose id is taken. -/
def checkUnique (db : Database) (r : Relation) (row : Row) : Except Failure Unit :=
  match row.value "id" with
  | .str id =>
    if db.rows.any fun other => other.relation == r && other.holds "id" id then .error (refused "UNIQUE" r "id")
    else .ok ()
  | _ => .ok ()

/-! ## Insertion -/

/-- The value that is given for a column. Null counts as given only where it is a value of its own. -/
def given? (fields : Fields) (c : Column) : Option Value :=
  match fields.get? c.name with
  | some .null => if c.kind = .json then some .null else none
  | v => v

/-- What an insertion puts into a column; `id` is the id that a row without one gets. -/
def slot (id : String) (fields : Fields) (c : Column) : Slot :=
  match given? fields c, c.default with
  | some v, _ => .given v
  | none, .now => .now
  | none, .freshId => .given (.str id)
  | none, .value v => .given v
  | none, .nothing => if c.kind = .json then .absent else .given .null

/-- Adds a prepared row. -/
def insertSlots (db : Database) (r : Relation) (slots : Slots) : Except Failure Database := do
  let slots ← slots.prepare
  checkRequired r slots
  let row : Row := ⟨r, slots.cells⟩
  db.checkUnique r row
  return { db with rows := db.rows ++ [row] }

/-- A failed statement leaves the database as it was. -/
def orUnchanged (db : Database) : Except Failure Database → Except Failure Unit × Database
  | .ok db => (.ok (), db)
  | .error f => (.error f, db)

/-- Adds a row with the given fields. A row without an id gets a fresh one. -/
def insert (db : Database) (r : Relation) (fields : Fields) : Except Failure Unit × Database :=
  let needsId := r.columns.any fun c => c.default matches .freshId && (given? fields c).isNone
  let (id, db) := if needsId then db.freshId else ("", db)
  db.orUnchanged (db.insertSlots r (r.columns.map fun c => (c, slot id fields c)))

/-! ## Changes -/

/-- What a change puts into the columns that it names. The time of the change is noted unless it is given. -/
def changedSlots (r : Relation) (fields : Fields) : Slots :=
  r.columns.filterMap fun c =>
    match fields.get? c.name with
    | some v => some (c, .given v)
    | none => if c.name = "updated_at" then some (c, .now) else none

/-- Sets columns of the rows that a condition selects. -/
def change (db : Database) (r : Relation) (selects : Row → Bool) (fields : Fields) :
    Except Failure Database := do
  let slots ← (changedSlots r fields).prepare
  let isTarget (row : Row) : Bool := row.relation == r && selects row
  if db.rows.any isTarget then checkRequired r slots
  return { db with rows := db.rows.map fun row => if isTarget row then row.setAll slots.cells else row }

/-! ## Queries -/

/-- The rows of a relation that a condition selects. -/
def select (db : Database) (r : Relation) (selects : Row → Bool) : List Row :=
  db.rows.filter fun row => row.relation == r && selects row

/-- All rows of a relation. -/
def all (db : Database) (r : Relation) : List Row := db.select r fun _ => true

/-- The row of an id within a tenant. -/
def find? (db : Database) (r : Relation) (tenant id : String) : Option Row :=
  (db.select r fun row => row.isOf tenant id).head?

end Database

end Runbook
