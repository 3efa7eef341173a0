import Runbook.Database

/-!
# Records that workflows write

The fields of a record that are columns of its table are kept in them, all others in the column `attributes`,
so that nothing is lost. Every write stays within a tenant.

* `Database.insertRecord`: adds a record.
* `Database.updateRecord`: changes a record that is not deleted, and tells whether there was one.
-/

namespace Runbook

namespace Database

/-- A text with the mark of universal time written as an offset. -/
def withOffset (s : String) : String :=
  String.ofList (s.toList.flatMap fun c => if c = 'Z' then "+00:00".toList else [c])

/-- A value for a column; a text for a column of moments is read as one. -/
def readFor (c : Column) (v : Value) : Except Failure Value :=
  match c.kind, v with
  | .moment, .str s =>
    ((DateTime.readIso (withOffset s)).map Value.dateTime).mapError fun e => .misuse (.dateTime e)
  | _, v => .ok v

/-- The column that keeps what is no column. -/
def attributes : String := "attributes"

/-- Fields that are columns, and all others. -/
structure Parts where
  columns : Fields
  extra : Fields

/-- Sorts the fields of a record; texts for columns of moments are read. -/
def split (t : Table) : Fields → Except Failure Parts
  | [] => .ok ⟨[], []⟩
  | (name, v) :: rest =>
    match (Relation.records t).column? name with
    | some c =>
      if name = attributes then do
        let parts ← split t rest
        return { parts with extra := (name, v) :: parts.extra }
      else do
        let v ← readFor c v
        let parts ← split t rest
        return { parts with columns := (name, v) :: parts.columns }
    | none => do
      let parts ← split t rest
      return { parts with extra := (name, v) :: parts.extra }

/-- The fields of a new row. -/
def recordFields (tenant : String) (parts : Parts) : Fields :=
  let owned := parts.columns.set "tenant_id" (.str tenant)
  if parts.extra.isEmpty then owned else owned.set attributes parts.extra.toValue

/-- Adds a record for a tenant. -/
def insertRecord (db : Database) (t : Table) (tenant : String) (record : Fields) :
    Except Failure Unit × Database :=
  match split t record with
  | .ok parts => db.insert (.records t) (recordFields tenant parts)
  | .error f => (.error f, db)

/-- Whether a value is another one than a column holds. -/
def differs (row : Row) (name : String) (v : Value) : Bool :=
  match (row.cell? name).bind Cell.value? with
  | some w => !(Value.equal v w matches .ok true)
  | none => true

/-- The attributes of a row with others over them. -/
def mergedAttributes (row : Row) (extra : Fields) : Entries :=
  let old : Entries := match row.value attributes with
    | .dict es => es
    | _ => []
  extra.foldl (fun es (n, v) => Entries.set es n v) old

/-- What a change does to a row: the columns that get another value. The id and the tenant stay. -/
def recordChanges (row : Row) (parts : Parts) : Fields :=
  let columns := (parts.columns.erase "tenant_id").erase "id"
  let all := if parts.extra.isEmpty then columns
    else columns ++ [(attributes, .dict (mergedAttributes row parts.extra))]
  all.filter fun (n, v) => differs row n v

/-- Whether a row is the one of an id within a tenant and not deleted. -/
def isLive (tenant id : String) (row : Row) : Bool :=
  row.isOf tenant id && (match row.value "is_deleted" with
    | .bool false => true
    | _ => false)

/-- Changes a record of a tenant, and whether there is one that is not deleted. -/
def updateRecord (db : Database) (t : Table) (tenant id : String) (fields : Fields) :
    Except Failure (Bool × Database) := do
  let parts ← split t fields
  match (db.select (.records t) (isLive tenant id)).head? with
  | none => return (false, db)
  | some row =>
    let changes := recordChanges row parts
    if changes.isEmpty then return (true, db)
    let db ← db.change (.records t) (isLive tenant id) changes
    return (true, db)

end Database

end Runbook
