import DaoGen.Emission.Conversion
import DaoGen.Emission.Method
import DaoGen.Sql.Parameter
import DaoGen.Sql.Write

/-!
# Bodies of operations

A body computes the normal form of the result with calls of the driver and then converts it to the
declared type. How the driver is called depends on the result: nothing, a number of rows, one
value, an optional value or a list.
-/
namespace DaoGen.Emission

open Code

/-- The failure of an operation. -/
def unsupported {T : Type} (op : Operation) (obstacle : Obstacle) : Except EmitCause T :=
  .error (.unsupportedOperation op.name obstacle)

/-- The connection of a generated implementation. -/
def connectionField : Expr := .field .self "conn"

/-- Binds the values to supply for placeholders. -/
def bindParams (ctx : Context) (values : List Expr) : Stmt :=
  let item := reference (words ["dyn"] ++ ctx.runtimePath ["driver", "ToSql"])
  .bind (.name "params") (some (bracket (item ++ op ";" ++ numberToken values.length)))
    (.array values)

/-- A call of the driver that is waited for. -/
def driverCall (name : String) (types : List Token) (sql : String) : Expr :=
  .await (.method connectionField name types [.text sql, .borrow (.var "params")])

/-! ## Queries -/

/-- The value to supply for a named parameter of a query. -/
def queryValue (op : Operation) (name : String) : Except EmitCause Expr :=
  match op.params.find? (columnName ·.name == name) with
  | none => .error (.unknownQueryParameter op.name name)
  | some param => do return .borrow (.var (← identifier param.name))

/-- The call of the driver for a query, by its result. -/
def queryCall (op : Operation) (written sql : String) :
    Except EmitCause (List Stmt × Option Expr) :=
  let ret := op.returnType
  if ret.isUnit then .ok ([.run (driverCall "execute" [] sql)], none)
  else if Sql.isMutation written && !Sql.returnsRows written then
    if ret.isInteger then do
      return ([], some (.cast (driverCall "execute" [] sql) (← typeTokens ret)))
    else unsupported op (.mutatingResult ret)
  else if ret.nullable then do
    let ty ← typeTokens { ret with nullable := false }
    return ([], some (driverCall "query_optional" (Expr.turbofish ty) sql))
  else
    match ret.element? with
    | some element => do
      return ([], some (driverCall "query_list" (Expr.turbofish (← typeTokens element)) sql))
    | none => do
      return ([], some (driverCall "query_one" (Expr.turbofish (← typeTokens ret)) sql))

/-- Computes the result of a query. -/
def queryBody (ctx : Context) (op : Operation) (query : Query) : Except EmitCause Body := do
  let written := query.sqlFor ctx.dialect
  let bound := Sql.bind ctx.dialect written
  let values ← bound.params.mapM (queryValue op)
  let (stmts, result) ← queryCall op written bound.sql
  return { stmts := bindParams ctx values :: stmts, result }

/-! ## Writes -/

/-- What a write gives back, with the type of it. -/
inductive WriteResult where
  | nothing
  /-- the key of a new row, or the number of rows -/
  | count (ty : List Token)
  /-- the keys of several new rows -/
  | keys (ty : List Token)
  deriving Repr

/-- What a write gives back for the result of its operation. -/
def writeResult (op : Operation) (write : Write) : Except EmitCause WriteResult :=
  let ret := op.returnType
  let insertsBatch := write.batch && write.op.isInsert
  if ret.isUnit then .ok .nothing
  else if ret.isInteger && !insertsBatch then do return .count (← typeTokens ret)
  else
    match ret.element?.filter fun e => insertsBatch && e.isInteger with
    | some element => do return .keys (← typeTokens element)
    | none => unsupported op (.writeResult write.op ret)

/-- Writes one entity: a block with the key of the new row or the number of rows. -/
def writeOne (ctx : Context) (statement : Sql.WriteStatement) (item : String) :
    Except EmitCause Expr := do
  let values ← statement.fields.mapM fun f => do
    return Expr.borrow (.field (.var item) (← identifier f.name))
  let name := if statement.insert then "insert" else "execute"
  return .block false [bindParams ctx values] (some (driverCall name [] statement.sql))

/-- The items of a parameter that holds a list. -/
def itemsOf (param : String) : Expr := .invoke (.var param) "iter" []

/-- Writes every entity of a list, where `one` writes `item`. -/
def batchBody (param : String) (one : Expr) : WriteResult → Body
  | .nothing => { stmts := [.each "item" (itemsOf param) [.run one]] }
  | .keys ty =>
    { stmts := [
        .bind (.mutable "ids") none
          (.call (absolutePath ["std", "vec", "Vec", "with_capacity"])
            [.invoke (.var param) "len" []]),
        .each "item" (itemsOf param)
          [.run (.invoke (.var "ids") "push" [.cast (.paren one) ty])]]
      result := some (.var "ids") }
  | .count ty =>
    { stmts := [
        .bind (.mutable "affected") (some (words ["u64"])) (.number 0),
        .each "item" (itemsOf param) [.increase "affected" one]]
      result := some (.cast (.var "affected") ty) }

/-- Writes a single entity. -/
def singleBody (one : Expr) : WriteResult → Body
  | .nothing => { stmts := [.run one] }
  | .count ty | .keys ty => { result := some (.cast (.paren one) ty) }

/-- Computes the result of a write. -/
def writeBody (ctx : Context) (op : Operation) (write : Write) : Except EmitCause Body :=
  match ctx.model.entity? write.entity with
  | none => unsupported op (.unmodeledEntity write.entity)
  | some entity =>
    match Sql.WriteStatement.ofEntity ctx.dialect write.op entity with
    | .error fault => unsupported op (.write fault)
    | .ok statement => do
      let result ← writeResult op write
      let param ← identifier write.param
      if write.batch then return batchBody param (← writeOne ctx statement "item") result
      else return singleBody (← writeOne ctx statement param) result

/-! ## Methods -/

/-- What a target that cannot block says when it should. -/
def blockingMessage (ctx : Context) (op : Operation) : String :=
  "`" ++ op.name ++ "` blocks the calling thread, which the " ++ ctx.target.name ++
    " target cannot do; declare it `async`"

/-- Waits for a computation on the calling thread. -/
def blockOn (ctx : Context) (e : Expr) : Expr := .call (ctx.runtimePath ["block_on"]) [e]

/-- Delivers the computed result as the operation is declared to. -/
def deliver (ctx : Context) (op : Operation) (continuation : Option Binding) (compute : Body)
    (value : Expr) : Body :=
  match op.suspension, continuation with
  | .async, _ => { stmts := [.bound "value" compute.block], result := some value }
  | suspension, continuation =>
    if !ctx.target.supportsBlocking then
      { result := some
          (.macroCall (words ["unimplemented"]) .paren [.text (blockingMessage ctx op)]) }
    else
      let bound := Stmt.bound "value" (blockOn ctx compute.asyncBlock)
      match suspension, continuation with
      | .continuation _ _, some cont =>
        { stmts := [bound, .run (.invoke (.var cont.name) "resume" [value])] }
      | _, _ => { stmts := [bound], result := some value }

/-- The method of an operation, given how its result is computed. -/
def methodWith (ctx : Context) (op : Operation) (compute : Body) : Except EmitCause Method := do
  let header ← MethodHeader.ofOperation ctx op
  match Conversion.ofType .toDeclared op.declaredResult with
  | .error ty => unsupported op (.unbuiltResult ty)
  | .ok conversion =>
    let value := conversion.apply (.var "value")
    return { header, body := deliver ctx op header.continuation compute value }

/-- The method of an operation; one that keeps its own body has none. -/
def implementationMethod? (ctx : Context) (op : Operation) : Except EmitCause (Option Method) :=
  match op.kind with
  | .custom => .ok none
  | .query query => do return some (← methodWith ctx op (← queryBody ctx op query))
  | .write write => do return some (← methodWith ctx op (← writeBody ctx op write))

end DaoGen.Emission
