import DaoGen.Extraction.Database
import DaoGen.Extraction.Entity
import DaoGen.Extraction.Operation

/-!
# Extraction of models

The models of a pass are built from the declarations of a source: entities first, then DAOs, which
write entities, then databases, which list both. A declaration that refers to something not known
yet is put off, and so is one that refers to a declaration that was put off. Simple names are
unique among the models of one kind, because they name generated modules.
-/
namespace DaoGen

/-- The models built so far, the declarations put off, and the malformed ones. -/
structure Extraction where
  model : Model := {}
  deferred : List Declaration := []
  errors : List MalformedDeclaration := []
  diagnostics : List Diagnostic := []
  deriving Repr

namespace Extraction

/-- Whether code can be generated from the models. -/
def isValid (e : Extraction) : Bool := e.errors.isEmpty

/-- What written names can stand for at this point. -/
def scope (e : Extraction) : Scope := ⟨e.model, e.deferred.map (·.name)⟩

/-- Takes up the outcome of an attempt to model a declaration. -/
def settle {M : Type} (add : Model → M → Model) (e : Extraction) (d : Declaration)
    (attempt : Attempt M) : Extraction :=
  let e := { e with diagnostics := e.diagnostics ++ attempt.warnings }
  match attempt.outcome with
  | .ok m => { e with model := add e.model m }
  | .error (.unresolved _) => { e with deferred := e.deferred ++ [d] }
  | .error (.malformed error) =>
    { e with
      errors := e.errors ++ [error]
      diagnostics := e.diagnostics ++ [error.diagnostic] }

/-- Refuses a model whose simple name belongs to one of the given names of its kind. -/
def claimName {M : Type} (d : Declaration) (taken : List QualifiedName) (m : M) :
    Except Rejection M :=
  match taken.find? (·.simple == d.name.simple) with
  | some holder => .error (d.malformed (.nameTaken d.kind d.name.simple holder))
  | none => .ok m

def addEntity (model : Model) (entity : Entity) : Model :=
  { model with entities := model.entities ++ [entity] }

def addDao (model : Model) (dao : Dao) : Model := { model with daos := model.daos ++ [dao] }

def addDatabase (model : Model) (database : Database) : Model :=
  { model with databases := model.databases ++ [database] }

/-- Models an entity. -/
def takeEntity (source : DeclarationSource) (e : Extraction) (d : Declaration) : Extraction :=
  let attempt := Entity.ofDeclaration source d
  let outcome := attempt.outcome.bind (claimName d (e.model.entities.map (·.name)))
  e.settle addEntity d { attempt with outcome }

/-- Models a DAO. -/
def takeDao (source : DeclarationSource) (e : Extraction) (d : Declaration) : Extraction :=
  let outcome :=
    (Dao.ofDeclaration source e.scope d).bind (claimName d (e.model.daos.map (·.name)))
  e.settle addDao d { outcome }

/-- Models a database. -/
def takeDatabase (e : Extraction) (d : Declaration) : Extraction :=
  let outcome :=
    (Database.ofDeclaration e.scope d).bind (claimName d (e.model.databases.map (·.name)))
  e.settle addDatabase d { outcome }

/-- The models of all declarations of a source. -/
def ofSource (source : DeclarationSource) : Extraction :=
  let entities := (source.ofKind .entity).foldl (takeEntity source) {}
  let daos := (source.ofKind .dao).foldl (takeDao source) entities
  (source.ofKind .database).foldl takeDatabase daos

end Extraction

end DaoGen
