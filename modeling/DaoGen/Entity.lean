import DaoGen.Declaration
import DaoGen.TypeRef.Normal

/-!
# Entities

A persisted record type with its fields, indices and attachment, once its declaration has been
found well formed.
-/
namespace DaoGen

/-- The name of a column: that of its field, without the mark of a raw identifier. -/
def columnName (name : String) : String := (Text.stripPrefix? "r#" name).getD name

/-- A field of an entity. -/
structure Field where
  name : String
  ty : TypeRef
  nullable : Bool := false
  primaryKey : Bool := false
  autoGenerate : Bool := false
  deriving DecidableEq, Repr

namespace Field

def column (field : Field) : String := columnName field.name

/-- The normal form of the declared type. -/
def canonicalType (field : Field) : TypeRef := field.ty.normalize

/-- Whether a name means this field: its own or that of its column. -/
def isCalled (field : Field) (name : String) : Bool := field.name == name || field.column == name

end Field

/-- An index with the columns in declared order. -/
structure Index where
  name : String
  columns : List String
  unique : Bool
  deriving DecidableEq, Repr

/-- The fields that describe the attachment of an entity, by name. -/
structure Attachment where
  uri : String
  md5 : String
  size : String
  deriving DecidableEq, Repr

/-- The name of the field that plays a role. -/
def Attachment.field (attachment : Attachment) : AttachmentRole → String
  | .uri => attachment.uri
  | .md5 => attachment.md5
  | .size => attachment.size

/-- A persisted record type. -/
structure Entity where
  name : QualifiedName
  table : String
  fields : List Field
  indices : List Index := []
  attachment : Option Attachment := none
  location : Option Location := none
  deriving DecidableEq, Repr

namespace Entity

/-- The first field marked as the primary key. -/
def primaryKey? (entity : Entity) : Option Field := entity.fields.find? (·.primaryKey)

/-- The first field that a name means. -/
def field? (entity : Entity) (name : String) : Option Field :=
  entity.fields.find? (·.isCalled name)

/-- The fields that a plain insert writes: the database makes up a generated key. -/
def insertFields (entity : Entity) : List Field := entity.fields.filter (!·.autoGenerate)

/-- The fields that an update writes: all but the primary key. -/
def updateFields (entity : Entity) : List Field := entity.fields.filter (!·.primaryKey)

end Entity

end DaoGen
