import DaoGen.Emission.Implementation
import DaoGen.Emission.Schema
import DaoGen.Emission.Unit

/-!
# Database structs

A struct that owns a connection. It creates the tables of the entities of a database and hands out
the implementations of its DAOs.
-/
namespace DaoGen.Emission

open Code

/-- The method that hands out the implementation of a DAO. -/
structure Accessor where
  doc : String
  name : String
  module : String
  type : String
  deriving DecidableEq, Repr

/-- The struct of a database; `tables` holds the names of the schema modules of its entities. -/
structure DatabaseStruct where
  imports : List Token
  doc : String
  name : String
  connection : List Token
  version : Nat
  discriminator : Nat
  tables : List String
  accessors : List Accessor
  deriving Repr

namespace Accessor

/-- The accessor of a DAO. -/
def ofDao (ctx : Context) (dao : QualifiedName) : Except EmitCause Accessor := do
  let name ← identifier (Text.snakeCase dao.simple)
  let module ← identifier (UnitKind.daoImpl.module dao)
  let type ← DaoImpl.nameOf ctx dao
  return { name, module, type, doc := " `" ++ dao.simple ++ "` bound to this database." }

def tokens (a : Accessor) : List Token :=
  let type := path ["super", a.module, a.type]
  docLine a.doc ++
    publicFn a.name (reference (words ["self"])) (arrow (type ++ angled [.lifetime "_"]))
      (member type "new" ++ paren (Expr.borrow (.field .self "conn")).tokens)

end Accessor

namespace DatabaseStruct

/-- The schema module of an entity of the model. -/
def tableOf (ctx : Context) (name : QualifiedName) : Except EmitCause String :=
  match ctx.model.entity? name with
  | none => .error (.invalidIdentifier name.path)
  | some entity => SchemaModule.nameOf entity

/-- The struct of a database. -/
def ofDatabase (ctx : Context) (database : Database) : Except EmitCause DatabaseStruct := do
  let name ← joinedName database.name [ctx.target.suffix, ctx.dialect.suffix]
  let imports ← moduleImport database.name
  let tables ← database.entities.mapM (tableOf ctx)
  let accessors ← database.daos.mapM (Accessor.ofDao ctx)
  return {
    imports, name, tables, accessors
    connection := ctx.connection
    version := database.version
    discriminator := ctx.dialect.discriminator
    doc := " `" ++ database.name.simple ++ "` (version " ++ toString database.version ++
      ") on the " ++ ctx.dialect.name ++ " driver of the " ++ ctx.target.name ++ " target." }

/-- A statement without parameters. -/
def execute (statement : Expr) : Stmt :=
  .run (.await (.invoke (.field .self "conn") "execute" [statement, .borrow (.array [])]))

/-- Creates the table of a schema module and its indices. -/
def createTable (table : String) : List Stmt :=
  let constant (name : String) : Expr := .path (path ["super", "schema", table, name])
  [execute (constant "CREATE_TABLE"),
    .each "statement" (constant "CREATE_INDICES") [execute (.var "statement")]]

def tokens (d : DatabaseStruct) : List Token :=
  let conn := typed "conn" d.connection
  let self := reference (words ["self"])
  d.imports ++ generatedMark ++ docLine d.doc ++
    words ["pub", "struct", d.name] ++ brace conn ++
    generatedMark ++ words ["impl", d.name] ++
    brace (
      fixedDocLine " Schema version." ++
      publicConst "VERSION" (words ["u32"]) [.literal (toString d.version ++ "u32")] ++
      fixedDocLine " Value handed to `db_type` parameters." ++
      publicConst "DB_TYPE" (words ["i32"]) [.literal (toString d.discriminator ++ "i32")] ++
      fixedDocLine " Take ownership of an open connection." ++
      publicFn "new" conn (arrow (words ["Self"])) (words ["Self"] ++ brace (words ["conn"])) ++
      fixedDocLine " The underlying connection." ++
      publicFn "connection" self (arrow (reference d.connection))
        (Expr.borrow (.field .self "conn")).tokens ++
      fixedDocLine " Create every table and index, skipping existing ones." ++
      words ["pub", "async", "fn", "create_all_tables"] ++ paren self ++
        brace (Stmt.tokensList (d.tables.flatMap createTable)) ++
      d.accessors.flatMap Accessor.tokens)

end DatabaseStruct

end DaoGen.Emission
