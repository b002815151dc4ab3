import DaoGen.Code.Phrase
import DaoGen.Emission.Cause

/-!
# Names in generated code

Names, types, paths and attributes of declarations as tokens of generated code.
-/
namespace DaoGen.Emission

open Code

/-- A name that generated code can use. -/
def identifier (text : String) : Except EmitCause String :=
  match parseName text with
  | some name => .ok name
  | none => .error (.invalidIdentifier text)

/-- A type that generated code can use. -/
def typeTokens (ty : TypeRef) : Except EmitCause (List Token) :=
  match parseType ty.render with
  | some tokens => .ok tokens
  | none => .error (.invalidType ty.render)

/-- The path of a declaration inside the crate. -/
def cratePath (name : QualifiedName) : Except EmitCause (List Token) :=
  match parsePath ("crate::" ++ name.path) with
  | some tokens => .ok tokens
  | none => .error (.invalidIdentifier name.path)

/-- An attribute kept as text. -/
def attributeTokens (text : String) : Except EmitCause (List Token) :=
  match lex text with
  | some tokens => .ok tokens
  | none => .error (.invalidAttribute text)

/-- The path of the module that a declaration is in. -/
def modulePath (name : QualifiedName) : String :=
  match Text.beforeLastColons? name.path with
  | some module => "crate::" ++ module
  | none => "crate"

/-- Brings the names of the module of a declaration into scope. -/
def moduleImport (name : QualifiedName) : Except EmitCause (List Token) :=
  match parsePath (modulePath name) with
  | some tokens =>
    .ok (outerAttribute (words ["allow"] ++ paren (words ["unused_imports"])) ++
      words ["use"] ++ tokens ++ op "::" ++ op "*" ++ op ";")
  | none => .error (.invalidIdentifier name.path)

/-- The simple name of a declaration with endings put to it. -/
def joinedName (name : QualifiedName) (endings : List String) : Except EmitCause String :=
  identifier (name.simple ++ String.join endings)

/-- Keeps tools from complaining about generated items. -/
def generatedMark : List Token :=
  outerAttribute (words ["allow"] ++ paren (commas [path ["clippy", "all"],
    words ["unused_qualifications"], words ["unused_mut"], words ["unused_variables"]]))

/-- What a unit is generated from: the models, the target and dialect, and the crate that it
calls. -/
structure Context where
  model : Model
  target : Target
  dialect : Dialect
  runtime : String
  deriving Repr

namespace Context

/-- A path in the crate that generated code calls. -/
def runtimePath (ctx : Context) (names : List String) : List Token :=
  absolutePath (ctx.runtime :: names)

/-- The type of connections. -/
def connection (ctx : Context) : List Token :=
  ctx.runtimePath ["driver", ctx.target.name, ctx.dialect.connection]

end Context

end DaoGen.Emission
