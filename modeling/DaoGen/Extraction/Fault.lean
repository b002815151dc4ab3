import DaoGen.Operation

/-!
# Faults of declarations

Every reason for which a declaration is malformed, and its wording. A declaration that only waits
for another one is not malformed: it is put off.
-/
namespace DaoGen

/-- What can be wrong with a method of a DAO. -/
inductive OperationFault where
  | notAMethod
  | noReceiver
  | invalidAttribute (name reason : String)
  | asyncContinuation
  | continuationReturns
  | dbTypeNotInteger (param : String)
  | repeatedOverride (dialect : Dialect)
  | severalMarkers
  | markerWithBody
  | overrideWithoutQuery
  | emptyQuery
  | notOneParameter (op : WriteOp)
  | optionalEntity (op : WriteOp) (param : String)
  | notAnEntity (op : WriteOp) (ty : TypeRef)
  | ambiguousEntity (name : String)
  | unfitResult (op : WriteOp) (batch : Bool) (ty : TypeRef)
  | noMarker
  deriving DecidableEq, Repr

def OperationFault.message : OperationFault → String
  | .notAMethod => "DAO members must be methods"
  | .noReceiver => "operations must take `&self`"
  | .invalidAttribute name reason => "invalid `" ++ name ++ "` attribute: " ++ reason
  | .asyncContinuation => "cannot be both `async` and continuation-style"
  | .continuationReturns => "continuation-style operations must not declare a return type"
  | .dbTypeNotInteger param => "`db_type` parameter `" ++ param ++ "` must be an integer"
  | .repeatedOverride dialect => "more than one " ++ dialect.name ++ " query override"
  | .severalMarkers => "declares more than one persistence annotation"
  | .markerWithBody =>
    "persistence annotations require an operation without a default body"
  | .overrideWithoutQuery => "dialect query overrides need a dialect-neutral `#[query]`"
  | .emptyQuery => "query is empty"
  | .notOneParameter op => "`" ++ op.label ++ "` operations take exactly one entity parameter"
  | .optionalEntity op param =>
    "`" ++ op.label ++ "` parameter `" ++ param ++ "` cannot be optional"
  | .notAnEntity op ty =>
    "`" ++ op.label ++ "` parameter type `" ++ ty.render ++ "` is not an entity"
  | .ambiguousEntity name => "entity name `" ++ name ++ "` is ambiguous; use its full path"
  | .unfitResult op batch ty =>
    let expected :=
      if op.isInsert && batch then "`()` or `Vec` of an integer type"
      else "`()` or an integer type"
    "`" ++ op.label ++ "` operations return " ++ expected ++ ", not `" ++ ty.render ++ "`"
  | .noMarker => "abstract operation has no persistence annotation"

/-- What can be wrong with a declaration. -/
inductive Fault where
  | invalidAttribute (name reason : String)
  | notAField (member : String)
  | invalidMemberAttribute (name member reason : String)
  | noPrimaryKey
  | nullableKey (field : String)
  | generatedKeyNotInteger (field : String)
  | severalPrimaryKeys
  | missingAttachmentField (role : AttachmentRole)
  | sharedAttachmentField
  | attachmentSizeNotInteger (field : String)
  | indexWithoutColumns
  | unknownIndexColumn (column : String)
  | repeatedIndexColumn (column : String)
  | repeatedIndexName (name : String)
  | operation (name : String) (fault : OperationFault)
  | noDatabaseAttribute
  | noEntities
  | unknownItem (kind : DeclarationKind) (written : String)
  | ambiguousItem (kind : DeclarationKind) (written : String)
  | repeatedItem (kind : DeclarationKind) (written : String)
  | nameTaken (kind : DeclarationKind) (name : String) (holder : QualifiedName)
  deriving DecidableEq, Repr

def Fault.message : Fault → String
  | .invalidAttribute name reason => "invalid `" ++ name ++ "` attribute: " ++ reason
  | .notAField member => "`" ++ member ++ "` is not a field"
  | .invalidMemberAttribute name member reason =>
    "invalid `" ++ name ++ "` attribute on `" ++ member ++ "`: " ++ reason
  | .noPrimaryKey => "no field is marked `primary_key`"
  | .nullableKey field => "primary key `" ++ field ++ "` cannot be nullable"
  | .generatedKeyNotInteger field =>
    "auto-generated primary key `" ++ field ++ "` must be an integer"
  | .severalPrimaryKeys => "more than one field is marked `primary_key`"
  | .missingAttachmentField role =>
    "attachment entity is missing its " ++ role.label ++ " field"
  | .sharedAttachmentField => "one field cannot hold two attachment roles"
  | .attachmentSizeNotInteger field =>
    "attachment size field `" ++ field ++ "` must be an integer"
  | .indexWithoutColumns => "index declares no columns"
  | .unknownIndexColumn column => "index references unknown column `" ++ column ++ "`"
  | .repeatedIndexColumn column => "index lists column `" ++ column ++ "` twice"
  | .repeatedIndexName name => "index name `" ++ name ++ "` is used twice"
  | .operation name fault => "`" ++ name ++ "`: " ++ fault.message
  | .noDatabaseAttribute => "missing `#[database(...)]` attribute"
  | .noEntities => "a database lists at least one entity"
  | .unknownItem kind written => "unknown " ++ kind.label ++ " `" ++ written ++ "`"
  | .ambiguousItem kind written => kind.label ++ " name `" ++ written ++ "` is ambiguous"
  | .repeatedItem kind written => kind.label ++ " `" ++ written ++ "` is listed twice"
  | .nameTaken kind name holder =>
    kind.label ++ " name `" ++ name ++ "` is already used by `" ++ holder.path ++
      "`; simple names must be unique"

/-- A declaration with a fault. -/
structure MalformedDeclaration where
  declaration : QualifiedName
  location : Option Location
  fault : Fault
  deriving DecidableEq, Repr

def MalformedDeclaration.message (m : MalformedDeclaration) : String :=
  "malformed declaration `" ++ m.declaration.path ++ "`: " ++ m.fault.message

/-- The error to report for a malformed declaration. -/
def MalformedDeclaration.diagnostic (m : MalformedDeclaration) : Diagnostic :=
  .error m.message m.location

/-- Why there is no model of a declaration. -/
inductive Rejection where
  | malformed (error : MalformedDeclaration)
  | unresolved (reference : UnresolvedReference)
  deriving DecidableEq, Repr

/-- The rejection of a declaration for a fault of its own. -/
def Declaration.malformed (d : Declaration) (fault : Fault) : Rejection :=
  .malformed ⟨d.name, d.location, fault⟩

end DaoGen
