import DaoGen.Code.ItemSyntax
import DaoGen.Sql.Write

/-!
# Causes of failure

Why a unit cannot be generated, and the wording of it. Names, types and attributes are text until
they are used in generated code; only then is it known whether they can be.
-/
namespace DaoGen

/-- Why an operation cannot be generated. -/
inductive Obstacle where
  /-- the declared result cannot be made from the normal form -/
  | unbuiltResult (ty : TypeRef)
  | mutatingResult (ty : TypeRef)
  | unmodeledEntity (name : QualifiedName)
  | write (fault : Sql.WriteFault)
  | writeResult (op : WriteOp) (ty : TypeRef)
  | unreadableOperation
  | unreadableTable
  /-- the normal form of the result cannot be made from the declared one -/
  | unsentResult (ty : TypeRef)
  deriving DecidableEq, Repr

def Obstacle.message : Obstacle → String
  | .unbuiltResult ty => "cannot build a `" ++ ty.render ++ "` result"
  | .mutatingResult ty =>
    "a mutating query yields `()` or an affected-row count, not `" ++ ty.render ++ "`"
  | .unmodeledEntity name => "entity `" ++ name.path ++ "` is not modeled"
  | .write fault => fault.message
  | .writeResult op ty => "`" ++ op.label ++ "` cannot return `" ++ ty.render ++ "`"
  | .unreadableOperation => "the record operation cannot be read from the query"
  | .unreadableTable => "the mutated table cannot be read from the query"
  | .unsentResult ty => "`" ++ ty.render ++ "` cannot be sent over HTTP"

/-- Why a unit cannot be generated. -/
inductive EmitCause where
  | invalidIdentifier (text : String)
  | invalidType (text : String)
  | invalidAttribute (text : String)
  | unknownQueryParameter (operation parameter : String)
  | unsupportedColumn (entity : QualifiedName) (field : Field) (dialect : Dialect)
  | unsupportedOperation (operation : String) (obstacle : Obstacle)
  deriving DecidableEq, Repr

def EmitCause.message : EmitCause → String
  | .invalidIdentifier text => "`" ++ text ++ "` is not a valid Rust identifier"
  | .invalidType text => "`" ++ text ++ "` is not a valid Rust type"
  | .invalidAttribute text => "attribute `" ++ text ++ "` could not be tokenized"
  | .unknownQueryParameter operation parameter =>
    "query of `" ++ operation ++ "` references unknown parameter `:" ++ parameter ++ "`"
  | .unsupportedColumn entity field dialect =>
    "field `" ++ entity.path ++ "." ++ field.name ++ "` of type `" ++ field.ty.render ++
      "` has no " ++ dialect.name ++ " column type"
  | .unsupportedOperation operation obstacle => "`" ++ operation ++ "`: " ++ obstacle.message

/-- A failed attempt to generate a unit. -/
structure EmissionError where
  emitter : String
  subject : QualifiedName
  target : Target
  dialect : Option Dialect
  cause : EmitCause
  deriving DecidableEq, Repr

/-- Where the attempt was made: on a target, and perhaps on one of its dialects. -/
def EmissionError.place (e : EmissionError) : String :=
  match e.dialect with
  | some dialect => e.target.name ++ "/" ++ dialect.name
  | none => e.target.name

def EmissionError.message (e : EmissionError) : String :=
  e.emitter ++ " emitter failed for `" ++ e.subject.path ++ "` on " ++ e.place ++ ": " ++
    e.cause.message

end DaoGen
