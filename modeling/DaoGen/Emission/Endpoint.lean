import DaoGen.Emission.Body
import DaoGen.Emission.Route
import DaoGen.TypeRef.Wire

/-!
# Endpoints

A router that answers requests for every operation of a DAO. A request carries the parameters by
name, apart from those that receive the number of the dialect; the answer is the result in normal
form, whatever way the operation delivers it.
-/
namespace DaoGen.Emission

open Code

/-- The body of requests for an operation. -/
structure RequestStruct where
  doc : String
  name : String
  fields : List Binding
  deriving Repr

/-- The function that answers requests for an operation. -/
structure Handler where
  doc : String
  name : String
  request : String
  interface : List Token
  response : List Token
  body : Body
  deriving Repr

/-- What is generated for one operation. -/
structure Endpoint where
  request : RequestStruct
  handler : Handler
  route : String
  deriving Repr

/-- The router of a DAO. -/
structure Router where
  imports : List Token
  doc : String
  name : String
  interface : List Token
  endpoints : List Endpoint
  deriving Repr

/-- What is asked of a DAO that is shared by handlers. -/
def sharedBounds (interface : List Token) : List Token :=
  words ["where"] ++ typed "D" ((op "+").intercalate [
    interface,
    absolutePath ["core", "marker", "Send"],
    absolutePath ["core", "marker", "Sync"],
    [.lifetime "static"]])

/-- The tokens that close two lists of type arguments at once, around the shared DAO. -/
def sharedDao : List Token :=
  absolutePath ["std", "sync", "Arc"] ++ op "<" ++ words ["D"] ++ op ">>"

namespace RequestStruct

/-- The parameters that are sent. -/
def sentParams (op : Operation) : List LogicalParam := op.params.filter (!·.dbType)

/-- The field for a parameter. -/
def fieldOf (param : LogicalParam) : Except EmitCause Binding := do
  let name ← identifier param.name
  let ty ← typeTokens param.ty.wire
  return { name, ty }

/-- The body of requests for an operation. -/
def ofOperation (dao : QualifiedName) (op : Operation) (name : String) :
    Except EmitCause RequestStruct := do
  let fields ← (sentParams op).mapM fieldOf
  return { name, fields, doc := " Request body of `" ++ dao.simple ++ "::" ++ op.name ++ "`." }

def tokens (r : RequestStruct) : List Token :=
  docLine r.doc ++
    outerAttribute (words ["derive"] ++ paren (absolutePath ["serde", "Deserialize"])) ++
    words ["pub", "struct", r.name] ++
    brace (commas (r.fields.map fun f => words ["pub"] ++ f.tokens))

end RequestStruct

namespace Handler

/-- Whether a value of the type is an optional reference. -/
def isOptionalReference (ty : TypeRef) : Bool :=
  ty.simpleName == "Option" && ty.firstArg?.any (·.reference)

/-- Whether a reference to the content of an optional type is to a part of what is sent. -/
def isOptionalSlice (ty : TypeRef) : Bool :=
  ty.firstArg?.any fun inner => inner.name == "str" || inner.name == "[]"

/-- The value of a field of the request as an argument of the declared type. -/
def passed (ty : TypeRef) (name : String) : Expr :=
  if ty.reference then .borrow (.var name)
  else if isOptionalReference ty then
    .invoke (.var name) (if isOptionalSlice ty then "as_deref" else "as_ref") []
  else .var name

/-- The argument for a parameter. -/
def argumentOf (ctx : Context) (param : LogicalParam) : Except EmitCause Expr :=
  if param.dbType then .ok (.number ctx.dialect.discriminator)
  else do return passed param.ty (← identifier param.name)

/-- Calls an operation and waits for its result. -/
def callOf (ctx : Context) (op : Operation) (method : String) (args : List Expr) : Expr :=
  let call (args : List Expr) : Expr := .invoke (.var "dao") method args
  match op.suspension with
  | .blocking => call args
  | .async => blockOn ctx (call args)
  | .continuation _ _ =>
    .block false [
      .bind (.tuple ["cont", "pending"]) none
        (.call (ctx.runtimePath ["Continuation", "channel"]) []),
      .run (call (args ++ [.var "cont"]))]
      (some (blockOn ctx (.var "pending")))

/-- Takes the request apart, calls the operation and answers with the converted result. -/
def bodyOf (ctx : Context) (request : String) (fields : List String) (call value : Expr) : Body :=
  let work : Expr := .block false [
    .bind (.fields request fields) none (.var "request"),
    .bound "value" call] (some value)
  { stmts := [.bound "value"
      (.await (.call (ctx.runtimePath ["spawn_blocking"]) [.closure true [] work]))]
    result := some (.call (absolutePath ["axum", "Json"]) [.var "value"]) }

/-- The handler of an operation. -/
def ofOperation (ctx : Context) (interface : List Token) (dao : QualifiedName) (op : Operation)
    (name request : String) : Except EmitCause Handler := do
  let method ← identifier op.name
  let fields ← (RequestStruct.sentParams op).mapM fun p => identifier p.name
  let args ← op.params.mapM (argumentOf ctx)
  match Conversion.ofType .toCanonical op.declaredResult with
  | .error ty => unsupported op (.unsentResult ty)
  | .ok conversion =>
    let response ← typeTokens op.returnType
    let value := conversion.apply (.var "value")
    return {
      name, request, interface, response
      doc := " `POST " ++ routePath dao op.name ++ "`"
      body := bodyOf ctx request fields (callOf ctx op method args) value }

def tokens (h : Handler) : List Token :=
  let json (ty : List Token) : List Token := absolutePath ["axum", "Json"] ++ angled ty
  let state := absolutePath ["axum", "extract", "State"]
  docLine h.doc ++ words ["pub", "async", "fn", h.name] ++ angled (words ["D"]) ++
    paren (commas [
      state ++ paren (words ["dao"]) ++ op ":" ++ state ++ op "<" ++ sharedDao,
      absolutePath ["axum", "Json"] ++ paren (words ["request"]) ++ op ":" ++
        json (words [h.request])]) ++
    arrow (json h.response) ++ sharedBounds h.interface ++ brace h.body.tokens

end Handler

namespace Endpoint

/-- What is generated for an operation. -/
def ofOperation (ctx : Context) (interface : List Token) (dao : QualifiedName) (op : Operation) :
    Except EmitCause Endpoint := do
  let name := columnName op.name
  let requestName ← joinedName dao [Text.pascalCase name, "Request"]
  let handlerName ←
    identifier (Text.snakeCase dao.simple ++ "_" ++ Text.snakeCase name)
  let request ← RequestStruct.ofOperation dao op requestName
  let handler ← Handler.ofOperation ctx interface dao op handlerName requestName
  return { request, handler, route := routePath dao op.name }

def tokens (e : Endpoint) : List Token :=
  generatedMark ++ e.request.tokens ++ generatedMark ++ e.handler.tokens

/-- Mounts the handler at its route. -/
def routeTokens (e : Endpoint) : List Token :=
  op "." ++ words ["route"] ++
    paren (commas [stringToken e.route,
      absolutePath ["axum", "routing", "post"] ++
        paren (words [e.handler.name] ++ op "::" ++ angled (words ["D"]))])

end Endpoint

namespace Router

/-- The router of a DAO. -/
def ofDao (ctx : Context) (dao : Dao) : Except EmitCause Router := do
  let imports ← moduleImport dao.name
  let interface ← cratePath dao.name
  let name ← identifier (Text.snakeCase dao.name.simple ++ "_router")
  let endpoints ← dao.operations.mapM (Endpoint.ofOperation ctx interface dao.name)
  return {
    imports, name, interface, endpoints
    doc := " Router serving every `" ++ dao.name.simple ++ "` operation as `POST /" ++
      dao.name.simple ++ "/\x7boperation\x7d`." }

def tokens (r : Router) : List Token :=
  let router := absolutePath ["axum", "Router"]
  r.imports ++ r.endpoints.flatMap Endpoint.tokens ++ generatedMark ++ docLine r.doc ++
    words ["pub", "fn", r.name] ++ angled (words ["D"]) ++ paren [] ++
    arrow (router ++ op "<" ++ sharedDao) ++ sharedBounds r.interface ++
    brace (member router "new" ++ paren [] ++ r.endpoints.flatMap Endpoint.routeTokens)

end Router

end DaoGen.Emission
