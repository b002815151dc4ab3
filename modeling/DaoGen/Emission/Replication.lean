import DaoGen.Emission.Record

/-!
# Replication wrappers

A struct that implements a DAO by passing calls on to another implementation. Calls that write rows
are recorded: the records are made before the call, which may use its arguments up, and put into a
queue when the call is done.
-/
namespace DaoGen.Emission

open Code

/-- The replication wrapper of a DAO. -/
structure Replication where
  imports : List Token
  doc : String
  name : String
  interface : List Token
  runtime : List Token
  methods : List Method
  deriving Repr

namespace Replication

/-- The call of the wrapped implementation with the same arguments. -/
def innerCall (op : Operation) (h : MethodHeader) : Expr :=
  let call : Expr := .invoke (.field .self "inner") h.name h.forwarded
  match op.suspension with
  | .async => .await call
  | .blocking | .continuation _ _ => call

/-- Binds the records. -/
def bindRecords (ctx : Context) (r : Recording) : Stmt :=
  let list := absolutePath ["std", "vec", "Vec"] ++
    angled (Recording.runtimePath ctx ["ReplicationRecord"])
  .bind (.name "records") (some list) (r.expr ctx)

/-- Puts every record into a queue. -/
def enqueueAll (ctx : Context) (queue : Expr) : Stmt :=
  .each "record" (.var "records")
    [.run (.call (Recording.runtimePath ctx ["ReplicationQueue", "enqueue"])
      [.borrow queue, .var "record"])]

/-- Passes a call on, and records it when it is done. A continuation does so right before it goes
on. -/
def recordingBody (ctx : Context) (op : Operation) (h : MethodHeader) (r : Recording) : Body :=
  match h.continuation with
  | some cont =>
    { stmts := [
        bindRecords ctx r,
        .bound "queue"
          (.call (absolutePath ["core", "clone", "Clone", "clone"])
            [.borrow (.field .self "queue")]),
        .bound cont.name
          (.invoke (.var cont.name) "before_resume"
            [.closure true [] (.block false [enqueueAll ctx (.var "queue")] none)])]
      result := some (innerCall op h) }
  | none =>
    { stmts := [
        bindRecords ctx r,
        .bound "value" (innerCall op h),
        enqueueAll ctx (.field .self "queue")]
      result := some (.var "value") }

/-- The method of an operation; one with a body of its own has none. -/
def method? (ctx : Context) (op : Operation) : Except EmitCause (Option Method) :=
  if !op.isGenerated then .ok none
  else do
    let header ← MethodHeader.ofOperation ctx op
    let body :=
      match ← Recording.ofOperation? ctx op with
      | some recording => recordingBody ctx op header recording
      | none => { result := some (innerCall op header) }
    return some { header, body }

/-- The methods to generate. -/
def methodsOf (ctx : Context) (dao : Dao) : Except EmitCause (List Method) := do
  return (← dao.operations.mapM (method? ctx)).filterMap id

/-- The replication wrapper of a DAO. -/
def ofDao (ctx : Context) (dao : Dao) : Except EmitCause Replication := do
  let name ← joinedName dao.name ["Replicate"]
  let interface ← cratePath dao.name
  let imports ← moduleImport dao.name
  let methods ← methodsOf ctx dao
  return {
    imports, name, interface, methods
    runtime := ctx.runtimePath []
    doc := " `" ++ dao.name.simple ++ "` recording its mutations for replication." }

/-- What is asked of the queue. -/
def queueBounds (r : Replication) : List Token :=
  (op "+").intercalate [
    member (member r.runtime "replication") "ReplicationQueue",
    absolutePath ["core", "clone", "Clone"],
    absolutePath ["core", "marker", "Send"],
    [.lifetime "static"]]

def tokens (r : Replication) : List Token :=
  let params := angled (commas [words ["D"], words ["Q"]])
  let fields := commas [typed "inner" (words ["D"]), typed "queue" (words ["Q"])]
  let self := reference (words ["self"])
  let getter (name type : String) : List Token :=
    publicFn name self (arrow (reference (words [type]))) (Expr.borrow (.field .self name)).tokens
  r.imports ++ generatedMark ++ docLine r.doc ++
    words ["pub", "struct", r.name] ++ params ++ brace fields ++
    generatedMark ++ words ["impl"] ++ params ++ words [r.name] ++ params ++
    brace (
      fixedDocLine " Wrap an implementation and the queue receiving its records." ++
      publicFn "new" fields (arrow (words ["Self"]))
        (words ["Self"] ++ brace (commas [words ["inner"], words ["queue"]])) ++
      fixedDocLine " The wrapped implementation." ++ getter "inner" "D" ++
      fixedDocLine " The replication queue." ++ getter "queue" "Q") ++
    generatedMark ++ words ["impl"] ++ params ++ r.interface ++ words ["for", r.name] ++ params ++
    words ["where"] ++
    commas [typed "D" r.interface, typed "Q" r.queueBounds] ++
    brace (r.methods.flatMap Method.tokens)

end Replication

end DaoGen.Emission
