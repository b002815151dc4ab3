import DaoGen.Emission.Name
import DaoGen.Sql.Definition
import DaoGen.Text.Words

/-!
# Schemas

A module for each entity with the statements that create its table and its indices.
-/
namespace DaoGen.Emission

open Code

/-- The module of an entity. -/
structure SchemaModule where
  doc : String
  name : String
  table : String
  createTable : String
  indices : List Index
  createIndices : List String
  deriving Repr

/-- The modules of all entities, in order. -/
structure Schema where
  runtime : List Token
  modules : List SchemaModule
  deriving Repr

namespace SchemaModule

/-- The name of the module of an entity. -/
def nameOf (entity : Entity) : Except EmitCause String :=
  identifier (Text.snakeCase entity.name.simple)

/-- The module of an entity. -/
def ofEntity (dialect : Dialect) (entity : Entity) : Except EmitCause SchemaModule := do
  let name ← nameOf entity
  match Sql.createTable dialect entity with
  | .error field => .error (.unsupportedColumn entity.name field dialect)
  | .ok createTable =>
    return {
      name, createTable
      doc := " Schema of `" ++ entity.name.simple ++ "`."
      table := entity.table
      indices := entity.indices
      createIndices := entity.indices.map (Sql.createIndex entity.table) }

/-- What is known about an index. -/
def indexTokens (runtime : List Token) (index : Index) : List Token :=
  member (member runtime "schema") "IndexMeta" ++
    brace (commas [
      typed "name" (stringToken index.name),
      typed "columns"
        (reference (bracket (commas (index.columns.map fun c => stringToken (columnName c))))),
      typed "unique" (boolToken index.unique)])

/-- A list of texts. -/
def textList (texts : List String) : List Token :=
  reference (bracket (commas (texts.map stringToken)))

def tokens (runtime : List Token) (m : SchemaModule) : List Token :=
  let text := reference (words ["str"])
  docLine m.doc ++ generatedMark ++ words ["pub", "mod", m.name] ++
    brace (
      publicConst "TABLE" text (stringToken m.table) ++
      publicConst "CREATE_TABLE" text (stringToken m.createTable) ++
      publicConst "INDICES"
        (reference (bracket (member (member runtime "schema") "IndexMeta")))
        (reference (bracket (commas (m.indices.map (indexTokens runtime))))) ++
      publicConst "CREATE_INDICES" (reference (bracket text)) (textList m.createIndices))

end SchemaModule

namespace Schema

/-- The modules of entities, or the name of the first one without a module and the cause. -/
def modulesOf (dialect : Dialect) :
    List Entity → Except (QualifiedName × EmitCause) (List SchemaModule)
  | [] => .ok []
  | entity :: rest => do
    let m ← (SchemaModule.ofEntity dialect entity).mapError (entity.name, ·)
    return m :: (← modulesOf dialect rest)

/-- The schema of all entities. -/
def ofContext (ctx : Context) : Except (QualifiedName × EmitCause) Schema := do
  let modules ← modulesOf ctx.dialect ctx.model.entities
  return { runtime := ctx.runtimePath [], modules }

def tokens (s : Schema) : List Token :=
  s.modules.flatMap (SchemaModule.tokens s.runtime) ++
    fixedDocLine " `CREATE TABLE` statements in declaration order." ++
    publicConst "CREATE_TABLES" (reference (bracket (reference (words ["str"]))))
      (reference (bracket (commas (s.modules.map fun m => path [m.name, "CREATE_TABLE"]))))

end Schema

end DaoGen.Emission
