import DaoGen.Entity
import DaoGen.Operation

/-!
# Models

Everything well formed that one pass knows: entities, DAOs and databases, each in declared order.
-/
namespace DaoGen

/-- A data access object: the methods of an interface. -/
structure Dao where
  name : QualifiedName
  operations : List Operation
  location : Option Location := none
  deriving DecidableEq, Repr

/-- The first operation of a name. -/
def Dao.operation? (dao : Dao) (name : String) : Option Operation :=
  dao.operations.find? (·.name == name)

/-- A database: its schema version and the entities and DAOs that it puts together. -/
structure Database where
  name : QualifiedName
  version : Nat
  entities : List QualifiedName
  daos : List QualifiedName := []
  location : Option Location := none
  deriving DecidableEq, Repr

/-- The models of one pass. -/
structure Model where
  entities : List Entity := []
  daos : List Dao := []
  databases : List Database := []
  deriving DecidableEq, Repr

namespace Model

/-- The entity of a full name. -/
def entity? (model : Model) (name : QualifiedName) : Option Entity :=
  model.entities.find? (·.name == name)

/-- The DAO of a full name. -/
def dao? (model : Model) (name : QualifiedName) : Option Dao :=
  model.daos.find? (·.name == name)

end Model

end DaoGen
