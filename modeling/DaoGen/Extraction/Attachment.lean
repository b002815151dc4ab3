import DaoGen.Entity
import DaoGen.Extraction.Fault

/-!
# Attachments of entities

The fields of a declared attachment. The first field of each role counts, and a warning is given
for each later one.
-/
namespace DaoGen.Attachment

/-- The fields that the roles are given to; a place without a field is passed over. -/
def holders (fields : List Field) (roles : List (AttachmentRole × Nat)) :
    List (AttachmentRole × Field) :=
  roles.filterMap fun (role, i) => (fields[i]?).map (role, ·)

/-- The first field of a role. -/
def holder? (held : List (AttachmentRole × Field)) (role : AttachmentRole) : Option Field :=
  (held.find? (·.1 == role)).map (·.2)

def ignoredMessage (entity : QualifiedName) : String :=
  "`" ++ entity.path ++ "` has attachment fields but is not declared with " ++
    "`#[entity(attachment)]`; they are ignored"

def repeatedMessage (entity : QualifiedName) (role : AttachmentRole) (first field : Field) :
    String :=
  "`" ++ entity.path ++ "` declares the " ++ role.label ++ " attachment role on both `" ++
    first.name ++ "` and `" ++ field.name ++ "`; using `" ++ first.name ++ "`"

/-- A warning for each field whose role has been given to an earlier one; `seen` holds the first
field of each role met before. -/
def repeatWarnings (entity : QualifiedName) (location : Option Location)
    (seen : List (AttachmentRole × Field)) : List (AttachmentRole × Field) → List Diagnostic
  | [] => []
  | (role, field) :: rest =>
    match holder? seen role with
    | some first =>
      .warning (repeatedMessage entity role first field) location ::
        repeatWarnings entity location seen rest
    | none => repeatWarnings entity location (seen ++ [(role, field)]) rest

/-- The warnings about the roles of an entity. -/
def warnings (entity : QualifiedName) (location : Option Location) (declared : Bool)
    (fields : List Field) (roles : List (AttachmentRole × Nat)) : List Diagnostic :=
  if declared then repeatWarnings entity location [] (holders fields roles)
  else if roles.isEmpty then []
  else [.warning (ignoredMessage entity) location]

/-- The first field of a role that has to be there. -/
def require (held : List (AttachmentRole × Field)) (role : AttachmentRole) :
    Except Fault Field :=
  match holder? held role with
  | some field => .ok field
  | none => .error (.missingAttachmentField role)

/-- The attachment that the given fields make up. -/
def ofHolders (held : List (AttachmentRole × Field)) : Except Fault Attachment := do
  let uri ← require held .uri
  let md5 ← require held .md5
  let size ← require held .size
  if uri.name = md5.name ∨ uri.name = size.name ∨ md5.name = size.name then
    .error .sharedAttachmentField
  else if !size.canonicalType.isInteger then .error (.attachmentSizeNotInteger size.name)
  else .ok ⟨uri.name, md5.name, size.name⟩

/-- The attachment of an entity, if it is declared with one. -/
def ofRoles (declared : Bool) (fields : List Field) (roles : List (AttachmentRole × Nat)) :
    Except Fault (Option Attachment) :=
  if declared then (ofHolders (holders fields roles)).map some else .ok none

end DaoGen.Attachment
