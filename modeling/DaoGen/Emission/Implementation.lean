import DaoGen.Emission.Body

/-!
# Implementations of DAOs

A struct over a borrowed connection that implements every generated method of a DAO.
-/
namespace DaoGen.Emission

open Code

/-- The implementation of a DAO for a target and dialect. -/
structure DaoImpl where
  imports : List Token
  doc : String
  name : String
  interface : List Token
  connection : List Token
  methods : List Method
  deriving Repr

namespace DaoImpl

/-- The name of the implementation of a DAO. -/
def nameOf (ctx : Context) (dao : QualifiedName) : Except EmitCause String :=
  joinedName dao [ctx.target.suffix, ctx.dialect.suffix, "Impl"]

/-- The methods to generate, for the operations without a body of their own. -/
def methodsOf (ctx : Context) (dao : Dao) : Except EmitCause (List Method) := do
  return (← dao.operations.mapM (implementationMethod? ctx)).filterMap id

/-- The implementation of a DAO. -/
def ofDao (ctx : Context) (dao : Dao) : Except EmitCause DaoImpl := do
  let name ← nameOf ctx dao.name
  let interface ← cratePath dao.name
  let imports ← moduleImport dao.name
  let methods ← methodsOf ctx dao
  return {
    imports, name, interface, methods
    connection := ctx.connection
    doc := " `" ++ dao.name.simple ++ "` over the " ++ ctx.dialect.name ++ " driver of the " ++
      ctx.target.name ++ " target." }

/-- The borrowed connection. -/
def connectionBinding (d : DaoImpl) : List Token :=
  typed "conn" (op "&" ++ [.lifetime "a"] ++ d.connection)

def tokens (d : DaoImpl) : List Token :=
  let lifetime := angled [.lifetime "a"]
  d.imports ++ generatedMark ++ docLine d.doc ++
    words ["pub", "struct", d.name] ++ lifetime ++ brace d.connectionBinding ++
    generatedMark ++ words ["impl"] ++ lifetime ++ words [d.name] ++ lifetime ++
    brace (fixedDocLine " Wrap a borrowed connection." ++
      publicFn "new" d.connectionBinding (arrow (words ["Self"]))
        (words ["Self"] ++ brace (words ["conn"]))) ++
    generatedMark ++ words ["impl"] ++ d.interface ++ words ["for", d.name] ++
    angled [.lifetime "_"] ++ brace (d.methods.flatMap Method.tokens)

end DaoImpl

end DaoGen.Emission
