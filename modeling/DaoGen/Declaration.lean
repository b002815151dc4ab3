import DaoGen.Diagnostic
import DaoGen.QualifiedName
import DaoGen.Target
import DaoGen.TypeRef

/-!
# Declarations

What is declared before anything is known to be well formed: entities, DAOs and databases with
their members and annotations. A `DeclarationSource` hands them out; the models of a pass are
built from nothing else.
-/
namespace DaoGen

/-- The part that a field plays in the attachment of an entity. -/
inductive AttachmentRole where
  | uri
  | md5
  | size
  deriving DecidableEq, Repr

namespace AttachmentRole

/-- All roles, in the order in which a missing one is reported. -/
def all : List AttachmentRole := [.uri, .md5, .size]

def label : AttachmentRole → String
  | .uri => "uri"
  | .md5 => "content-hash"
  | .size => "size"

end AttachmentRole

/-- An index as declared. An empty name asks for a generated one. -/
structure IndexSpec where
  name : String := ""
  columns : List String
  unique : Bool := false
  deriving DecidableEq, Repr

/-- A database as declared, with the names of its entities and DAOs as written. -/
structure DatabaseSpec where
  version : Nat
  entities : List String
  daos : List String := []
  deriving DecidableEq, Repr

/-- What an attribute of a declaration, a member or a parameter says. -/
inductive Annotation where
  | entity (table : Option String)
  | withAttachment
  | index (spec : IndexSpec)
  | primaryKey (autoGenerate : Bool)
  | attachment (role : AttachmentRole)
  | dao
  | database (spec : DatabaseSpec)
  | query (sql : String)
  | dialectQuery (dialect : Dialect) (sql : String)
  | insert (replace : Bool)
  | update
  | delete
  | dbType
  /-- an attribute that is copied into generated code -/
  | passthrough (text : String)
  /-- a known attribute with arguments that it cannot take -/
  | invalid (name reason : String)
  deriving DecidableEq, Repr

namespace Annotation

/-- The attributes to be copied, in order. -/
def passthroughs (annotations : List Annotation) : List String :=
  annotations.filterMap fun
    | .passthrough text => some text
    | _ => none

/-- The name and fault of the first invalid attribute. -/
def firstInvalid? (annotations : List Annotation) : Option (String × String) :=
  annotations.findSome? fun
    | .invalid name reason => some (name, reason)
    | _ => none

/-- Whether a parameter receives the number of the dialect. -/
def hasDbType (annotations : List Annotation) : Bool := annotations.contains .dbType

end Annotation

inductive DeclarationKind where
  | entity
  | dao
  | database
  deriving DecidableEq, Repr

def DeclarationKind.label : DeclarationKind → String
  | .entity => "entity"
  | .dao => "DAO"
  | .database => "database"

/-- A declaration without its members. Its source finds it again by its number. -/
structure Declaration where
  id : Nat
  kind : DeclarationKind
  name : QualifiedName
  annotations : List Annotation
  location : Option Location := none
  deriving DecidableEq, Repr

/-- A parameter of a declared method. -/
structure Param where
  name : String
  ty : TypeRef
  annotations : List Annotation := []
  deriving DecidableEq, Repr

/-- The signature of a declared method; no return type stands for the unit type. -/
structure Signature where
  receiver : Bool := true
  params : List Param := []
  returns : Option TypeRef := none
  isAsync : Bool := false
  hasBody : Bool := false
  deriving DecidableEq, Repr

inductive MemberKind where
  | field (ty : TypeRef)
  | method (signature : Signature)
  deriving DecidableEq, Repr

/-- A member of the declaration with the number `owner`, at its place among the members. -/
structure Member where
  owner : Nat
  index : Nat
  name : String
  kind : MemberKind
  location : Option Location := none
  deriving DecidableEq, Repr

/-- A declaration that refers to something not known yet, so that it has to wait. -/
structure UnresolvedReference where
  declaration : QualifiedName
  reference : String
  deriving DecidableEq, Repr

def UnresolvedReference.message (r : UnresolvedReference) : String :=
  "`" ++ r.declaration.path ++ "` references `" ++ r.reference ++
    "`, which is not resolvable yet"

/-- Whatever hands out declarations. -/
structure DeclarationSource where
  declarations : List Declaration
  members : Declaration → Except UnresolvedReference (List Member)
  annotationsOf : Member → List Annotation

/-- The declarations of one kind, in order. -/
def DeclarationSource.ofKind (source : DeclarationSource) (kind : DeclarationKind) :
    List Declaration :=
  source.declarations.filter (·.kind == kind)

namespace Signature

/-- The last parameter, if the result is handed to it instead of being returned. -/
def continuation? (signature : Signature) : Option Param :=
  signature.params.getLast?.filter (·.ty.isContinuation)

/-- The parameters without the one that receives the result. -/
def logicalParams (signature : Signature) : List Param :=
  if signature.continuation?.isSome then signature.params.dropLast else signature.params

end Signature

end DaoGen
