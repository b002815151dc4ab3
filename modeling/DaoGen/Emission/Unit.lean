import DaoGen.Text.Words
import DaoGen.QualifiedName
import DaoGen.Target

/-!
# Names of generated units

Each generated unit is a module in a file of its own. Its name is made of the simple name of its
subject and its kind, and its directory of its target and dialect.
-/
namespace DaoGen

inductive UnitKind where
  | daoImpl
  | schema
  | database
  | replication
  | httpEndpoint
  deriving DecidableEq, Repr

/-- The name of the module of a unit. -/
def UnitKind.module (kind : UnitKind) (subject : QualifiedName) : String :=
  let name := Text.snakeCase subject.simple
  match kind with
  | .daoImpl => name ++ "_impl"
  | .schema => "schema"
  | .database => name
  | .replication => name ++ "_replicate"
  | .httpEndpoint => name ++ "_endpoint"

/-- What distinguishes a unit from every other. A unit for all dialects has none. -/
structure UnitId where
  target : Target
  dialect : Option Dialect
  subject : QualifiedName
  kind : UnitKind
  deriving DecidableEq, Repr

namespace UnitId

def module (id : UnitId) : String := id.kind.module id.subject

/-- The file of a unit. -/
def path (id : UnitId) : String :=
  match id.dialect with
  | some dialect => id.target.name ++ "/" ++ dialect.name ++ "/" ++ id.module ++ ".rs"
  | none => id.target.name ++ "/" ++ id.module ++ ".rs"

end UnitId

end DaoGen
