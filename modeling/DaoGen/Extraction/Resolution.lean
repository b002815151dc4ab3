import DaoGen.Model

/-!
# Resolution of written names

A declaration names another one by its simple name or by its full path. A name stands for the one
modeled declaration that it fits; if there is none, it may stand for one that was put off.
-/
namespace DaoGen

/-- What a written name stands for. -/
inductive Resolution where
  | found (name : QualifiedName)
  | deferred
  | unknown
  | ambiguous
  deriving DecidableEq, Repr

/-- What names can stand for: the models built so far, and the declarations that were put off. -/
structure Scope where
  model : Model
  deferred : List QualifiedName
  deriving Repr

namespace Scope

/-- A written name without the marks of a path that starts at the root. -/
def pathOf (written : String) : String :=
  Text.trimPrefix "self::" (Text.trimPrefix "crate::" (Text.trimPrefix "::" written))

/-- Whether a path fits a declared name: a path of several names has to be the full one. -/
def fits (path : String) (name : QualifiedName) : Bool :=
  if Text.hasColons path then name.path == path else name.simple == path

/-- What a name stands for among the given ones. -/
def resolve (scope : Scope) (modeled : List QualifiedName) (written : String) : Resolution :=
  let path := pathOf written
  match modeled.filter (fits path) with
  | [name] => .found name
  | [] => if scope.deferred.any (fits path) then .deferred else .unknown
  | _ => .ambiguous

/-- What a written name of an entity stands for. -/
def entity (scope : Scope) (written : String) : Resolution :=
  scope.resolve (scope.model.entities.map (·.name)) written

/-- What a written name of a DAO stands for. -/
def dao (scope : Scope) (written : String) : Resolution :=
  scope.resolve (scope.model.daos.map (·.name)) written

end Scope

end DaoGen
