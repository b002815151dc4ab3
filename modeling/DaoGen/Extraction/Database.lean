import DaoGen.Extraction.Fault
import DaoGen.Extraction.Resolution

/-!
# Databases from declarations

A database is well formed if it lists at least one entity and every listed name stands for one
modeled declaration, which is listed once.
-/
namespace DaoGen.Database

/-- The first database attribute. -/
def spec? (d : Declaration) : Option DatabaseSpec :=
  d.annotations.findSome? fun
    | .database spec => some spec
    | _ => none

/-- The declarations that a list of written names stands for, after those in `found`. -/
def resolveAll (d : Declaration) (kind : DeclarationKind) (resolve : String → Resolution)
    (found : List QualifiedName) : List String → Except Rejection (List QualifiedName)
  | [] => .ok found
  | written :: rest =>
    match resolve written with
    | .deferred => .error (.unresolved ⟨d.name, written⟩)
    | .unknown => .error (d.malformed (.unknownItem kind written))
    | .ambiguous => .error (d.malformed (.ambiguousItem kind written))
    | .found name =>
      if found.contains name then .error (d.malformed (.repeatedItem kind written))
      else resolveAll d kind resolve (found ++ [name]) rest

/-- The database that a declaration declares. -/
def ofDeclaration (scope : Scope) (d : Declaration) : Except Rejection Database :=
  match Annotation.firstInvalid? d.annotations with
  | some (name, reason) => .error (d.malformed (.invalidAttribute name reason))
  | none =>
    match spec? d with
    | none => .error (d.malformed .noDatabaseAttribute)
    | some spec =>
      if spec.entities.isEmpty then .error (d.malformed .noEntities)
      else do
        let entities ← resolveAll d .entity scope.entity [] spec.entities
        let daos ← resolveAll d .dao scope.dao [] spec.daos
        return { name := d.name, version := spec.version, entities, daos, location := d.location }

end DaoGen.Database
