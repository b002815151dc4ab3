import DaoGen.Declaration.Attribute
import DaoGen.Declaration.WrittenType

/-!
# Declarations of source files

A `Collection` holds the declarations of the files that were added to it, in order. The number of
a declaration is its place, so that adding a file changes nothing about those already there.
-/
namespace DaoGen

open Code

/-- The members of a declaration as written. -/
inductive WrittenMembers where
  | fields (fields : FieldsSyntax)
  | methods (methods : List MethodSyntax)
  deriving Repr

/-- A declaration as collected, before it has a number. -/
structure Collected where
  kind : DeclarationKind
  name : QualifiedName
  annotations : List Annotation
  location : Location
  members : WrittenMembers
  deriving Repr

/-- A file that is not a source file. -/
structure UnreadableFile where
  file : String
  deriving DecidableEq, Repr

def UnreadableFile.message (e : UnreadableFile) : String := "failed to parse `" ++ e.file ++ "`"

/-- The place of a name in a file. -/
def Code.PlacedName.location (name : PlacedName) (file : String) : Location where
  file := file
  line := if name.line = 0 then none else some name.line

namespace Collected

/-- The first attribute that makes an item a declaration: its kind and name. -/
def kindOf? (attributes : List Attribute) : Option (DeclarationKind × String) :=
  attributes.findSome? fun a =>
    match a.marker? with
    | some "entity" => some (.entity, "entity")
    | some "dao" => some (.dao, "dao")
    | some "database" => some (.database, "database")
    | _ => none

def isNamed : FieldsSyntax → Bool
  | .named _ => true
  | _ => false

def misplaced (name place : String) : Annotation :=
  .invalid name ("`#[" ++ name ++ "]` applies to " ++ place)

/-- What is wrong with a declaration apart from its arguments. -/
def structureFaults (kind : DeclarationKind) (name : String) (isGeneric : Bool)
    (members : WrittenMembers) : List Annotation :=
  let own :=
    match members, kind with
    | .fields _, .dao => [misplaced name "traits"]
    | .fields fields, .entity =>
      if isNamed fields then [] else [.invalid name "entities need named fields"]
    | .methods _, .entity | .methods _, .database => [misplaced name "structs"]
    | _, _ => []
  own ++ if isGeneric then [.invalid name "generic declarations are not supported"] else []

/-- The declaration that an item with these attributes is, if it is one. -/
def ofItem? (file module : String) (attributes : List Attribute) (name : PlacedName)
    (isGeneric : Bool) (members : WrittenMembers) : Option Collected :=
  (kindOf? attributes).map fun (kind, marker) =>
    { kind
      name := .inside module name.text
      annotations :=
        attributes.flatMap Annotation.ofDeclarationAttribute ++
          structureFaults kind marker isGeneric members
      location := name.location file
      members }

mutual

/-- The declarations of an item of a module and of the items inside it. -/
def ofItem (file module : String) : ItemSyntax → List Collected
  | .struct attributes name isGeneric fields =>
    (ofItem? file module attributes name isGeneric (.fields fields)).toList
  | .interface attributes name isGeneric methods =>
    (ofItem? file module attributes name isGeneric (.methods methods)).toList
  | .module name items => ofItems file (QualifiedName.inside module name.text).path items

/-- The declarations of the items of a module. -/
def ofItems (file module : String) : List ItemSyntax → List Collected
  | [] => []
  | item :: rest => ofItem file module item ++ ofItems file module rest

end

/-! ## Members -/

/-- The name of a parameter; one without a plain name is called by its position. -/
def paramName (p : ParameterSyntax) : String := p.name.getD ("arg" ++ toString p.position)

def paramOf (p : ParameterSyntax) : Except String Param := do
  let ty ← TypeRef.ofSyntax p.type
  return { name := paramName p, ty, annotations := p.attributes.map Annotation.ofParamAttribute }

/-- The declared return type, unless it is the unit type. -/
def returnOf (type : Option TypeSyntax) : Except String (Option TypeRef) :=
  match type with
  | none => .ok none
  | some type => do
    let ty ← TypeRef.ofSyntax type
    return if ty.isUnit then none else some ty

def signatureOf (m : MethodSyntax) : Except String Signature := do
  let params ← m.parameters.mapM paramOf
  let returns ← returnOf m.returns
  return {
    receiver := m.sharesReceiver
    params
    returns
    isAsync := m.isAsync
    hasBody := m.hasBody }

/-- The names and kinds of the members, or the text of what is not known yet. -/
def membersOf : WrittenMembers → Except String (List (PlacedName × MemberKind))
  | .fields (.named fields) =>
    fields.mapM fun f => do return (f.name, .field (← TypeRef.ofSyntax f.type))
  | .fields _ => .ok []
  | .methods methods =>
    methods.mapM fun m => do return (m.name, .method (← signatureOf m))

/-- The annotations of a method. -/
def methodAnnotations (m : MethodSyntax) : List Annotation :=
  m.attributes.map Annotation.ofMemberAttribute ++
    if m.isGeneric then
      [.invalid "dao" ("generic method `" ++ m.name.text ++ "` is not supported")]
    else []

/-- The annotations of all members, in order. -/
def memberAnnotations : WrittenMembers → List (List Annotation)
  | .fields (.named fields) => fields.map (·.attributes.map Annotation.ofMemberAttribute)
  | .fields (.tuple attributes) => attributes.map (·.map Annotation.ofMemberAttribute)
  | .fields .unit => []
  | .methods methods => methods.map methodAnnotations

end Collected

/-- The declarations of source files. -/
structure Collection where
  items : List Collected := []
  deriving Repr

namespace Collection

/-- Adds the declarations of a file, under the path of the module that the file is. -/
def add (c : Collection) (file module code : String) : Except UnreadableFile Collection :=
  match parseFile code with
  | some items => .ok { items := c.items ++ Collected.ofItems file module items }
  | none => .error ⟨file⟩

/-- The declarations with their numbers. -/
def declarations (c : Collection) : List Declaration :=
  c.items.zipIdx.map fun (item, id) =>
    { id, kind := item.kind, name := item.name, annotations := item.annotations,
      location := some item.location }

/-- The members of the declaration of a number; they are in the file of the declaration. -/
def members (c : Collection) (d : Declaration) : Except UnresolvedReference (List Member) :=
  match c.items[d.id]? with
  | none => .ok []
  | some item =>
    match Collected.membersOf item.members with
    | .error reference => .error ⟨d.name, reference⟩
    | .ok members =>
      let file := d.location.elim "" Location.file
      .ok (members.zipIdx.map fun ((name, kind), index) =>
        { owner := d.id, index, name := name.text, kind, location := some (name.location file) })

/-- The annotations of the member at a place of a declaration. -/
def annotationsOf (c : Collection) (m : Member) : List Annotation :=
  match c.items[m.owner]? with
  | none => []
  | some item => ((Collected.memberAnnotations item.members)[m.index]?).getD []

/-- The collection as a source of declarations. -/
def source (c : Collection) : DeclarationSource where
  declarations := c.declarations
  members := c.members
  annotationsOf := c.annotationsOf

end Collection

end DaoGen
