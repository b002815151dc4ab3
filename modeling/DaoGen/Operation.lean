import DaoGen.Declaration
import DaoGen.Sql.Statement
import DaoGen.TypeRef.Normal

/-!
# Operations

An operation of a DAO runs a query, writes entities, or keeps the body that it was declared with.
It returns its result, or hands it to a continuation.
-/
namespace DaoGen

/-- A parameter that the caller supplies. -/
structure LogicalParam where
  name : String
  ty : TypeRef
  dbType : Bool := false
  deriving DecidableEq, Repr

/-- How an operation delivers its result. -/
inductive Suspension where
  | blocking
  | async
  /-- to a last parameter of the given name and declared type -/
  | continuation (param : String) (ty : TypeRef)
  deriving DecidableEq, Repr

/-- The declared type of the result that a continuation takes. -/
def Suspension.carried? : Suspension → Option TypeRef
  | .continuation _ ty => ty.firstArg?
  | .blocking | .async => none

/-- The query of an operation, with those that replace it on single dialects. -/
structure Query where
  sql : String
  overrides : List (Dialect × String) := []
  deriving DecidableEq, Repr

/-- The query to run on a dialect: the first override for it, or else the neutral one. -/
def Query.sqlFor (query : Query) (dialect : Dialect) : String :=
  ((query.overrides.find? (·.1 == dialect)).map (·.2)).getD query.sql

inductive WriteOp where
  | insert
  | replace
  | update
  | delete
  deriving DecidableEq, Repr

namespace WriteOp

/-- The name of the attribute that declares the write. -/
def label : WriteOp → String
  | .insert | .replace => "insert"
  | .update => "update"
  | .delete => "delete"

def isInsert : WriteOp → Bool
  | .insert | .replace => true
  | .update | .delete => false

end WriteOp

/-- A write of the entity, or of each of the entities, that a parameter holds. -/
structure Write where
  op : WriteOp
  entity : QualifiedName
  param : String
  batch : Bool
  deriving DecidableEq, Repr

inductive OperationKind where
  | query (query : Query)
  | write (write : Write)
  | custom
  deriving DecidableEq, Repr

/-- A method of a DAO. -/
structure Operation where
  name : String
  params : List LogicalParam := []
  suspension : Suspension := .blocking
  declaredReturn : Option TypeRef := none
  /-- the normal form of the result -/
  returnType : TypeRef := .unit
  kind : OperationKind
  annotations : List Annotation := []
  location : Option Location := none
  deriving DecidableEq, Repr

namespace Operation

/-- Whether the method has no body of its own, so that one is generated. -/
def isGenerated (op : Operation) : Bool :=
  match op.kind with
  | .custom => false
  | .query _ | .write _ => true

/-- Whether the operation writes rows, as judged by its neutral query. -/
def isMutating (op : Operation) : Bool :=
  match op.kind with
  | .write _ => true
  | .query query => Sql.isMutation query.sql
  | .custom => false

def isContinuationStyle (op : Operation) : Bool :=
  match op.suspension with
  | .continuation _ _ => true
  | .blocking | .async => false

/-- The declared type of the result. -/
def declaredResult (op : Operation) : TypeRef :=
  match op.suspension with
  | .continuation _ ty => ty.firstArg?.getD .unit
  | .blocking | .async => op.declaredReturn.getD .unit

end Operation

end DaoGen
