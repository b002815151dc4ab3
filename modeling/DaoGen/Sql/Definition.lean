import DaoGen.Entity
import DaoGen.TypeRef.Column

/-!
# Definitions of tables and indices

The statements that create the table of an entity and its indices. Each is skipped by the database
if there is something of that name already.
-/
namespace DaoGen.Sql

/-- The definition of a column of the given type. A generated key has a type of its own. -/
def columnDefinition (dialect : Dialect) (field : Field) (type : String) : String :=
  if field.primaryKey && field.autoGenerate then
    match dialect with
    | .sqlite => field.column ++ " INTEGER PRIMARY KEY AUTOINCREMENT"
    | .postgres =>
      field.column ++ (if type = "BIGINT" then " BIGSERIAL" else " SERIAL") ++ " PRIMARY KEY"
  else
    field.column ++ " " ++ type ++ (if field.primaryKey then " PRIMARY KEY" else "") ++
      if field.nullable then "" else " NOT NULL"

/-- The definitions of the columns of fields, or the first field that cannot be stored. -/
def columnDefinitions (dialect : Dialect) : List Field → Except Field (List String)
  | [] => .ok []
  | field :: rest =>
    match field.canonicalType.columnType? dialect with
    | none => .error field
    | some type =>
      (columnDefinitions dialect rest).map (columnDefinition dialect field type :: ·)

/-- The statement that creates the table of an entity, or the first field that cannot be
stored. -/
def createTable (dialect : Dialect) (entity : Entity) : Except Field String :=
  (columnDefinitions dialect entity.fields).map fun columns =>
    "CREATE TABLE IF NOT EXISTS " ++ entity.table ++ " (" ++ ", ".intercalate columns ++ ")"

/-- The statement that creates an index of a table. -/
def createIndex (table : String) (index : Index) : String :=
  "CREATE " ++ (if index.unique then "UNIQUE " else "") ++ "INDEX IF NOT EXISTS " ++
    index.name ++ " ON " ++ table ++ " (" ++ ", ".intercalate (index.columns.map columnName) ++ ")"

end DaoGen.Sql
