import DaoGen.Model

/-!
# Generated writes

The statement that writes one entity, in the placeholders of a dialect, with the fields to supply
for them in order. Updates and deletions find their row by the primary key.
-/
namespace DaoGen.Sql

/-- Why there is no statement for a write. -/
inductive WriteFault where
  | noPrimaryKey (entity : QualifiedName)
  | nothingToUpdate (entity : QualifiedName)
  deriving DecidableEq, Repr

def WriteFault.message : WriteFault → String
  | .noPrimaryKey entity => "entity `" ++ entity.path ++ "` has no primary key"
  | .nothingToUpdate entity => "entity `" ++ entity.path ++ "` has no field to update"

/-- A statement with the fields for its placeholders. An insert gives the key of the new row, any
other write the number of rows. -/
structure WriteStatement where
  sql : String
  fields : List Field
  insert : Bool
  deriving DecidableEq, Repr

/-- The names of columns with commas between them. -/
def columnList (fields : List Field) : String := ", ".intercalate (fields.map Field.column)

/-- The columns of a new row and their placeholders. -/
def rowValues (dialect : Dialect) (fields : List Field) : String :=
  if fields.isEmpty then "DEFAULT VALUES"
  else "(" ++ columnList fields ++ ") VALUES (" ++ dialect.placeholders fields.length ++ ")"

/-- The columns that a conflicting row takes over from the new one. -/
def takenOver (key : Field) (fields : List Field) : List String :=
  (fields.map Field.column).filter (· != key.column)

/-- What to do with a row of the same key. -/
def onConflict (key : Field) (fields : List Field) : String :=
  let columns := takenOver key fields
  " ON CONFLICT (" ++ key.column ++ ") " ++
    if columns.isEmpty then "DO NOTHING"
    else
      "DO UPDATE SET " ++
        ", ".intercalate (columns.map fun column => column ++ " = EXCLUDED." ++ column)

/-- An insert of the given fields. -/
def insertSql (dialect : Dialect) (table : String) (key : Field) (fields : List Field)
    (replace : Bool) : String :=
  match dialect with
  | .sqlite =>
    (if replace then "INSERT OR REPLACE" else "INSERT") ++ " INTO " ++ table ++ " " ++
      rowValues dialect fields
  | .postgres =>
    "INSERT INTO " ++ table ++ " " ++ rowValues dialect fields ++
      (if replace then onConflict key fields else "") ++
      if key.canonicalType.isInteger then " RETURNING " ++ key.column else ""

/-- The row of the key, whose placeholder is at the given position. -/
def whereKey (dialect : Dialect) (key : Field) (position : Nat) : String :=
  " WHERE " ++ key.column ++ " = " ++ dialect.placeholder position

namespace WriteStatement

/-- An insert of one entity; a replacing one writes a generated key too. -/
def insertOf (dialect : Dialect) (entity : Entity) (key : Field) (replace : Bool) :
    WriteStatement :=
  let fields := if replace then entity.fields else entity.insertFields
  { sql := insertSql dialect entity.table key fields replace, fields, insert := true }

/-- An update of all fields but the key. -/
def updateOf (dialect : Dialect) (entity : Entity) (key : Field) : WriteStatement where
  sql :=
    "UPDATE " ++ entity.table ++ " SET " ++
      dialect.assignments (entity.updateFields.map Field.column) ++
      whereKey dialect key (entity.updateFields.length + 1)
  fields := entity.updateFields ++ [key]
  insert := false

def deleteOf (dialect : Dialect) (entity : Entity) (key : Field) : WriteStatement where
  sql := "DELETE FROM " ++ entity.table ++ whereKey dialect key 1
  fields := [key]
  insert := false

/-- The statement that writes one entity. -/
def ofEntity (dialect : Dialect) (op : WriteOp) (entity : Entity) :
    Except WriteFault WriteStatement :=
  match entity.primaryKey? with
  | none => .error (.noPrimaryKey entity.name)
  | some key =>
    match op with
    | .insert => .ok (insertOf dialect entity key false)
    | .replace => .ok (insertOf dialect entity key true)
    | .update =>
      if entity.updateFields.isEmpty then .error (.nothingToUpdate entity.name)
      else .ok (updateOf dialect entity key)
    | .delete => .ok (deleteOf dialect entity key)

end WriteStatement

end DaoGen.Sql
