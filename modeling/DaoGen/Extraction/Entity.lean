import DaoGen.Extraction.Attachment
import DaoGen.Extraction.Index

/-!
# Entities from declarations

An entity is well formed if its members are fields, exactly one of them is the primary key, and its
attachment and its indices are well formed.
-/
namespace DaoGen

/-- What an attempt to model a declaration gave, and what is to be said about it in any case. -/
structure Attempt (M : Type) where
  warnings : List Diagnostic := []
  outcome : Except Rejection M

namespace Entity

/-- The table of the last attribute that could name one, or else the simple name. -/
def tableOf (d : Declaration) : String :=
  let tables := d.annotations.filterMap fun
    | .entity table => some table
    | _ => none
  (tables.getLast?.bind id).getD d.name.simple

def declaresAttachment (d : Declaration) : Bool := d.annotations.contains .withAttachment

def indexSpecs (d : Declaration) : List IndexSpec :=
  d.annotations.filterMap fun
    | .index spec => some spec
    | _ => none

/-- The last mark of a primary key: whether its values are generated. -/
def keyMark? (annotations : List Annotation) : Option Bool :=
  (annotations.filterMap fun
    | .primaryKey autoGenerate => some autoGenerate
    | _ => none).getLast?

/-- The attachment roles that annotations give. -/
def rolesOf (annotations : List Annotation) : List AttachmentRole :=
  annotations.filterMap fun
    | .attachment role => some role
    | _ => none

/-- The field that a member declares. -/
def fieldOf (source : DeclarationSource) (member : Member) : Except Fault Field :=
  match member.kind with
  | .method _ => .error (.notAField member.name)
  | .field ty =>
    let annotations := source.annotationsOf member
    match Annotation.firstInvalid? annotations with
    | some (name, reason) => .error (.invalidMemberAttribute name member.name reason)
    | none =>
      .ok {
        name := member.name
        ty
        nullable := ty.normalize.nullable
        primaryKey := (keyMark? annotations).isSome
        autoGenerate := (keyMark? annotations).getD false }

/-- The roles given to the members, each with the place of its member. -/
def rolePlaces (source : DeclarationSource) (members : List Member) :
    List (AttachmentRole × Nat) :=
  members.zipIdx.flatMap fun (member, i) =>
    (rolesOf (source.annotationsOf member)).map (·, i)

/-- Checks that there is one primary key, always present, and an integer if it is generated. -/
def checkKey (fields : List Field) : Except Fault Unit :=
  match fields.filter (·.primaryKey) with
  | [] => .error .noPrimaryKey
  | [key] =>
    if key.nullable then .error (.nullableKey key.name)
    else if key.autoGenerate && !key.canonicalType.isInteger then
      .error (.generatedKeyNotInteger key.name)
    else .ok ()
  | _ => .error .severalPrimaryKeys

/-- The fields of an entity, checked up to its key. -/
def fieldsOf (source : DeclarationSource) (members : List Member) :
    Except Fault (List Field) := do
  let fields ← members.mapM (fieldOf source)
  checkKey fields
  return fields

/-- The entity with the given fields and attachment roles. -/
def ofFields (d : Declaration) (fields : List Field) (roles : List (AttachmentRole × Nat)) :
    Except Fault Entity := do
  let attachment ← Attachment.ofRoles (declaresAttachment d) fields roles
  let indices ← Index.ofSpecs (tableOf d) fields (indexSpecs d)
  return { name := d.name, table := tableOf d, fields, indices, attachment, location := d.location }

/-- The entity that a declaration declares. -/
def ofDeclaration (source : DeclarationSource) (d : Declaration) : Attempt Entity :=
  match Annotation.firstInvalid? d.annotations with
  | some (name, reason) => { outcome := .error (d.malformed (.invalidAttribute name reason)) }
  | none =>
    match source.members d with
    | .error reference => { outcome := .error (.unresolved reference) }
    | .ok members =>
      match fieldsOf source members with
      | .error fault => { outcome := .error (d.malformed fault) }
      | .ok fields =>
        let roles := rolePlaces source members
        { warnings := Attachment.warnings d.name d.location (declaresAttachment d) fields roles
          outcome := (ofFields d fields roles).mapError d.malformed }

end Entity

end DaoGen
