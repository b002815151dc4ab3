import DaoGen.Extraction.Fault
import DaoGen.Extraction.Resolution

/-!
# Operations from declarations

A method of a DAO is an operation if its result is delivered in one way and its attributes say
exactly once what it does; a method with a body of its own needs no attribute and has none.
-/
namespace DaoGen

/-- The declared type of the result of a method. -/
def Signature.result (signature : Signature) : TypeRef :=
  match signature.continuation? with
  | some param => param.ty.firstArg?.getD .unit
  | none => signature.returns.getD .unit

/-- How a method delivers its result. -/
def Suspension.ofSignature (signature : Signature) : Except OperationFault Suspension :=
  match signature.continuation? with
  | some param =>
    if signature.isAsync then .error .asyncContinuation
    else if signature.returns.any (!·.isUnit) then .error .continuationReturns
    else .ok (.continuation param.name param.ty)
  | none => .ok (if signature.isAsync then .async else .blocking)

/-- A declared parameter as one that the caller supplies. -/
def LogicalParam.ofParam (param : Param) : LogicalParam where
  name := param.name
  ty := param.ty
  dbType := Annotation.hasDbType param.annotations

/-- Why there is no operation: a fault of its own, or a name that is not known yet. -/
inductive OperationRejection where
  | fault (fault : OperationFault)
  | unresolved (name : String)
  deriving DecidableEq, Repr

/-- What an attribute says that an operation does. -/
inductive Marker where
  | query (sql : String)
  | write (op : WriteOp)
  deriving DecidableEq, Repr

def Marker.of? : Annotation → Option Marker
  | .query sql => some (.query sql)
  | .insert replace => some (.write (if replace then .replace else .insert))
  | .update => some (.write .update)
  | .delete => some (.write .delete)
  | _ => none

/-- The queries for single dialects. -/
def overridesOf (annotations : List Annotation) : List (Dialect × String) :=
  annotations.filterMap fun
    | .dialectQuery dialect sql => some (dialect, sql)
    | _ => none

/-- The first dialect that has been met before. -/
def repeatedDialect? (seen : List Dialect) : List Dialect → Option Dialect
  | [] => none
  | d :: rest => if seen.contains d then some d else repeatedDialect? (d :: seen) rest

namespace Write

/-- The entity type that a parameter holds, and whether it holds a list of them. -/
def elementOf (ty : TypeRef) : TypeRef × Bool :=
  let ty := ty.owned.normalize
  match ty.element? with
  | some element => (element.owned, true)
  | none => (ty, false)

/-- Whether a write can have the given result: none, the number or the new key of a row, or the
list of new keys. -/
def canReturn (op : WriteOp) (batch : Bool) (ty : TypeRef) : Bool :=
  if ty.isUnit then true
  else if op.isInsert && batch then ty.element?.any TypeRef.isInteger && ty.simpleName == "Vec"
  else ty.isInteger

/-- The write of the only parameter. -/
def ofParams (scope : Scope) (op : WriteOp) (params : List LogicalParam) (result : TypeRef) :
    Except OperationRejection Write :=
  match params with
  | [param] =>
    let (element, batch) := elementOf param.ty
    if element.nullable then .error (.fault (.optionalEntity op param.name))
    else
      match scope.entity element.name with
      | .deferred => .error (.unresolved element.name)
      | .unknown => .error (.fault (.notAnEntity op element))
      | .ambiguous => .error (.fault (.ambiguousEntity element.name))
      | .found entity =>
        if canReturn op batch result then .ok { op, entity, param := param.name, batch }
        else .error (.fault (.unfitResult op batch result))
  | _ => .error (.fault (.notOneParameter op))

end Write

/-- What an operation does, by its attributes. -/
def OperationKind.ofAnnotations (scope : Scope) (annotations : List Annotation) (hasBody : Bool)
    (params : List LogicalParam) (result : TypeRef) :
    Except OperationRejection OperationKind :=
  let overrides := overridesOf annotations
  match repeatedDialect? [] (overrides.map (·.1)) with
  | some dialect => .error (.fault (.repeatedOverride dialect))
  | none =>
    match annotations.filterMap Marker.of? with
    | _ :: _ :: _ => .error (.fault .severalMarkers)
    | [] =>
      if !overrides.isEmpty then .error (.fault .overrideWithoutQuery)
      else if hasBody then .ok .custom
      else .error (.fault .noMarker)
    | [marker] =>
      if hasBody then .error (.fault .markerWithBody)
      else
        match marker with
        | .query sql =>
          if Text.trim sql = "" then .error (.fault .emptyQuery)
          else .ok (.query { sql, overrides })
        | .write op =>
          if !overrides.isEmpty then .error (.fault .overrideWithoutQuery)
          else (Write.ofParams scope op params result).map .write

/-- Checks that the parameters that receive the number of the dialect are integers. -/
def checkDbTypes (params : List LogicalParam) : Except OperationFault Unit :=
  match params.find? fun param => param.dbType && !param.ty.normalize.isInteger with
  | some param => .error (.dbTypeNotInteger param.name)
  | none => .ok ()

namespace Operation

/-- The operation that a method declares by the given annotations. -/
def ofMethod (scope : Scope) (member : Member) (signature : Signature)
    (annotations : List Annotation) : Except OperationRejection Operation := do
  let suspension ← (Suspension.ofSignature signature).mapError .fault
  let params := signature.logicalParams.map .ofParam
  (checkDbTypes params).mapError .fault
  let returnType := signature.result.normalize
  let kind ← OperationKind.ofAnnotations scope annotations signature.hasBody params returnType
  return {
    name := member.name
    params, suspension
    declaredReturn := signature.returns
    returnType, kind, annotations
    location := member.location }

/-- The operation that a member declares. -/
def ofMember (source : DeclarationSource) (scope : Scope) (member : Member) :
    Except OperationRejection Operation :=
  match member.kind with
  | .field _ => .error (.fault .notAMethod)
  | .method signature =>
    if !signature.receiver then .error (.fault .noReceiver)
    else
      let annotations := source.annotationsOf member
      match Annotation.firstInvalid? annotations with
      | some (name, reason) => .error (.fault (.invalidAttribute name reason))
      | none => ofMethod scope member signature annotations

/-- The rejection of a DAO for one of its members. -/
def rejection (d : Declaration) (member : Member) : OperationRejection → Rejection
  | .fault fault =>
    .malformed ⟨d.name, member.location <|> d.location, .operation member.name fault⟩
  | .unresolved name => .unresolved ⟨d.name, name⟩

end Operation

/-- The DAO that a declaration declares. -/
def Dao.ofDeclaration (source : DeclarationSource) (scope : Scope) (d : Declaration) :
    Except Rejection Dao :=
  match Annotation.firstInvalid? d.annotations with
  | some (name, reason) => .error (d.malformed (.invalidAttribute name reason))
  | none => do
    let members ← (source.members d).mapError .unresolved
    let operations ← members.mapM fun member =>
      (Operation.ofMember source scope member).mapError (Operation.rejection d member)
    return { name := d.name, operations, location := d.location }

end DaoGen
