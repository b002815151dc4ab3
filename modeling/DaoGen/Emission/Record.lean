import DaoGen.Emission.Body

/-!
# Replication records

What is recorded of an operation that writes rows: the table, what happened to its rows, and the
attachments of the entities that were written.
-/
namespace DaoGen.Emission

open Code

/-- What happened to the rows of a table. -/
inductive RecordOperation where
  | insert
  | upsert
  | update
  | delete
  deriving DecidableEq, Repr

namespace RecordOperation

def name : RecordOperation → String
  | .insert => "Insert"
  | .upsert => "Upsert"
  | .update => "Update"
  | .delete => "Delete"

/-- What a write of entities does. -/
def ofWrite : WriteOp → RecordOperation
  | .insert => .insert
  | .replace => .upsert
  | .update => .update
  | .delete => .delete

/-- What a query does, if it writes rows. -/
def ofQuery? (sql : String) : Option RecordOperation :=
  match Sql.verbOf sql with
  | .replace => some .upsert
  | .insert => some (if Sql.replacesRows sql then .upsert else .insert)
  | .update => some .update
  | .delete => some .delete
  | .select | .other => none

end RecordOperation

/-- What records are made from: a statement, the entity that a parameter holds, or each of the
entities that it holds. -/
inductive RecordSource where
  | statement
  | one (param : String)
  | each (param : String)
  deriving DecidableEq, Repr

/-- The records of an operation. An attachment is recorded with the fields of these names. -/
structure Recording where
  table : String
  operation : RecordOperation
  attachment : Option Attachment
  source : RecordSource
  deriving DecidableEq, Repr

namespace Recording

/-- The fields of an attachment as names of generated code. -/
def attachmentOf (attachment : Option Attachment) : Except EmitCause (Option Attachment) :=
  match attachment with
  | none => .ok none
  | some a => do
    let uri ← identifier a.uri
    let md5 ← identifier a.md5
    let size ← identifier a.size
    return some ⟨uri, md5, size⟩

/-- The records of a write. -/
def ofWrite (ctx : Context) (op : Operation) (write : Write) : Except EmitCause Recording :=
  match ctx.model.entity? write.entity with
  | none => unsupported op (.unmodeledEntity write.entity)
  | some entity => do
    let param ← identifier write.param
    let attachment ← attachmentOf entity.attachment
    return {
      table := entity.table
      operation := .ofWrite write.op
      attachment
      source := if write.batch then .each param else .one param }

/-- The record of a query. -/
def ofQuery (op : Operation) (query : Query) : Except EmitCause Recording :=
  match RecordOperation.ofQuery? query.sql with
  | none => unsupported op .unreadableOperation
  | some operation =>
    match Sql.mutatedTable? query.sql with
    | none => unsupported op .unreadableTable
    | some table => .ok { table, operation, attachment := none, source := .statement }

/-- The records of an operation, if it writes rows. -/
def ofOperation? (ctx : Context) (op : Operation) : Except EmitCause (Option Recording) :=
  if !op.isMutating then .ok none
  else
    match op.kind with
    | .write write => do return some (← ofWrite ctx op write)
    | .query query => do return some (← ofQuery op query)
    | .custom => .ok none

/-- A path in the part of the runtime that is about replication. -/
def runtimePath (ctx : Context) (names : List String) : List Token :=
  ctx.runtimePath ("replication" :: names)

/-- A copy of a field of an entity. -/
def copied (item field : String) : Expr :=
  .call (absolutePath ["core", "clone", "Clone", "clone"]) [.borrow (.field (.var item) field)]

/-- One record; its attachment is that of the entity that `item` holds. -/
def recordExpr (ctx : Context) (r : Recording) (item : String) : Expr :=
  let record : Expr := .call (runtimePath ctx ["ReplicationRecord", "new"])
    [.text r.table, .path (runtimePath ctx ["Operation", r.operation.name])]
  match r.attachment with
  | none => record
  | some a =>
    .invoke record "with_attachment" [.call (runtimePath ctx ["AttachmentRef", "new"])
      [copied item a.uri, copied item a.md5,
        .cast (.field (.var item) a.size) (words ["i64"])]]

/-- The only record. -/
def single (record : Expr) : Expr :=
  .macroCall (absolutePath ["std", "vec"]) .bracket [record]

/-- The list of records. -/
def expr (ctx : Context) (r : Recording) : Expr :=
  match r.source with
  | .statement => single (recordExpr ctx { r with attachment := none } "")
  | .one param => single (recordExpr ctx r param)
  | .each param =>
    .collected (.mapped (itemsOf param) "item" (recordExpr ctx r "item"))

end Recording

end DaoGen.Emission
