import DaoGen.Proofs.Code.Scope
import DaoGen.Proofs.Emission.Contract

/-!
# Names in generated bodies

A body has names that the user chose, those of parameters, and local names of its own. A use of a
parameter may stand where a local name is in scope, and refers to that if it is the same identifier.
A body is given as an `Outline`, a function of how the user's names are spelled: with these spelled
raw the names of both origins can be told apart.
-/
namespace DaoGen

open Code

/-- A converted value uses the names that the value uses: a conversion only binds a variable for the
items of the value. -/
@[simp] theorem Conversion.each_apply {P : Use → Prop} {scope : List String} (c : Conversion)
    {value : Expr} : (c.apply value).Each P scope ↔ value.Each P scope := by
  have hv {scope : List String} : (Expr.var "v").Each P scope := by simp +decide
  induction c generalizing value scope with
  | same => rfl
  | wrap carrier inner ih => simp [apply, ih]
  | unwrap carrier inner ih => cases carrier <;> simp [apply, ih, unwrapped]
  | mapOption inner ih => simp [apply, Expr.mapped, ih, hv]
  | mapList inner ih => simp [apply, Expr.mapped, Expr.collected, ih, hv]
  | into => simp [apply]

namespace Emission

variable {P : Use → Prop} {scope : List String} {ctx : Context}

@[simp] theorem each_self : Expr.self.Each P scope := by
  simp +decide [Expr.self]

theorem each_connectionField : connectionField.Each P scope := by
  simp [connectionField]

theorem each_driverCall {name sql : String} {types : List Token} :
    (driverCall name types sql).Each P scope := by
  simp +decide [driverCall, each_connectionField]

theorem each_bindParams {isAsync : Bool} {values : List Expr} {rest : List Stmt}
    {result : Option Expr} :
    (Expr.block isAsync (bindParams ctx values :: rest) result).Each P scope ↔
      (∀ e ∈ values, e.Each P scope) ∧
        (Expr.block isAsync rest result).Each P ("params" :: scope) := by
  simp [Expr.each_block, bindParams, LocalPattern.names, Stmt.names, and_assoc]

/-! ## Outlines -/

/-- A body as a function of how the names that the user chose are spelled. -/
def Outline := (String → String) → Body

namespace Outline

/-- A property of every use of a name that the user chose. -/
def Each (P : Use → Prop) (scope : List String) (o : Outline) : Prop :=
  (o rawName).block.Each P scope

/-- Every use of a name that the user chose refers to such a name. -/
def Refers (scope : List String) (o : Outline) : Prop := o.Each Use.Refers scope

/-- Wherever a name that the user chose is used, no other name in scope is the same identifier. -/
def IsApart (scope : List String) (o : Outline) : Prop := o.Each Use.IsApart scope

end Outline

def Binding.spelled (f : String → String) (b : Binding) : Binding := { b with name := f b.name }

@[simp] theorem Binding.name_spelled (f : String → String) (b : Binding) :
    (b.spelled f).name = f b.name := rfl

def MethodHeader.spelled (f : String → String) (h : MethodHeader) : MethodHeader :=
  { h with params := h.params.map (·.spelled f), continuation := h.continuation.map (·.spelled f) }

/-- The names in scope in the body of a method. -/
def MethodHeader.inScope (h : MethodHeader) : List String := h.bindings.map fun b => rawName b.name

/-! ## Implementations -/

/-- What the body of an implementation computes, with the names that it uses. -/
inductive Computation where
  | query (params : List String) (call : List Stmt × Option Expr)
  | one (param : String) (statement : Sql.WriteStatement) (fields : List String)
    (result : WriteResult)
  | each (param : String) (statement : Sql.WriteStatement) (fields : List String)
    (result : WriteResult)

/-- Writes an entity, given the names of the fields to supply. -/
def rowBlock (ctx : Context) (statement : Sql.WriteStatement) (fields : List String)
    (item : String) : Expr :=
  .block false [bindParams ctx (fields.map fun f => .borrow (.field (.var item) f))]
    (some (driverCall (if statement.insert then "insert" else "execute") [] statement.sql))

/-- The local names of a write of several entities that are in scope where its parameter is used. -/
def WriteResult.locals : WriteResult → List String
  | .nothing => []
  | .keys _ => ["ids"]
  | .count _ => ["affected"]

namespace Computation

def outline (ctx : Context) : Computation → Outline
  | .query params call, f =>
    { stmts := bindParams ctx (params.map fun x => .borrow (.var (f x))) :: call.1
      result := call.2 }
  | .one param statement fields result, f =>
    singleBody (rowBlock ctx statement fields (f param)) result
  | .each param statement fields result, f =>
    batchBody (f param) (rowBlock ctx statement fields "item") result

/-- The names of the user in a computation. -/
def names : Computation → List String
  | .query params _ => params
  | .one param _ _ _ | .each param _ _ _ => [param]

/-- The local names that are in scope where those of the user are used. -/
def locals : Computation → List String
  | .query _ _ | .one _ _ _ _ => []
  | .each _ _ _ result => result.locals

theorem not_isRaw_of_mem_locals (c : Computation) : ∀ x ∈ c.locals, isRaw x = false := by
  cases c with
  | query | one => nofun
  | each _ _ _ result => cases result <;> simp +decide [locals, WriteResult.locals]

end Computation

/-- The body of a method of an implementation. -/
def methodOutline (ctx : Context) (op : Operation) (continuation : Option Binding)
    (computation : Computation) (conversion : Conversion) : Outline := fun f =>
  deliver ctx op (continuation.map (·.spelled f)) (computation.outline ctx f)
    (conversion.apply (.var "value"))

theorem each_rowBlock {statement : Sql.WriteStatement} {fields : List String} {item : String}
    (hitem : isRaw item = true → P ⟨item, scope⟩) :
    (rowBlock ctx statement fields item).Each P scope := by
  rw [rowBlock, each_bindParams, List.forall_mem_map]
  refine ⟨fun _ _ => ?_, ?_⟩
  · simpa using hitem
  · simp [Expr.each_block, each_driverCall]

theorem each_singleBody {one : Expr} {result : WriteResult} (hone : one.Each P scope) :
    (singleBody one result).block.Each P scope := by
  cases result <;> simp [singleBody, Body.block, Expr.each_block, hone]

theorem each_batchBody {param : String} {one : Expr} {result : WriteResult}
    (hone : ∀ {scope}, one.Each P scope) (hparam : isRaw param = true → P ⟨param, scope⟩) :
    (batchBody param one result).block.Each P scope ↔
      (isRaw param = true → P ⟨param, result.locals ++ scope⟩) := by
  cases result with
  | nothing =>
    simp [batchBody, Body.block, Expr.each_block, itemsOf, hone, WriteResult.locals]
  | keys ty =>
    simp +decide [batchBody, Body.block, Expr.each_block, itemsOf, hone, WriteResult.locals,
      LocalPattern.names, Stmt.names]
    exact fun _ => hparam
  | count ty =>
    simp +decide [batchBody, Body.block, Expr.each_block, itemsOf, hone, WriteResult.locals,
      LocalPattern.names, Stmt.names]

/-- The call of the driver for a query uses no name of the user. -/
theorem each_queryCall {op : Operation} {written sql : String} {call : List Stmt × Option Expr}
    (h : queryCall op written sql = .ok call) {isAsync : Bool} :
    (Expr.block isAsync call.1 call.2).Each P scope := by
  have hvalue {e : Expr} (he : ∀ {scope}, e.Each P scope) :
      (Expr.block isAsync [] (some e)).Each P scope := by
    simp [Expr.each_block, he]
  unfold queryCall at h
  dsimp only at h
  split at h
  · cases h
    simp [Expr.each_block, each_driverCall]
  · split at h
    · split at h
      · obtain ⟨ty, _, h⟩ := Except.bind_eq_ok.mp h
        cases Except.pure_eq_ok.mp h
        exact hvalue (by simp [each_driverCall])
      · cases h
    · split at h
      · obtain ⟨ty, _, h⟩ := Except.bind_eq_ok.mp h
        cases Except.pure_eq_ok.mp h
        exact hvalue each_driverCall
      · split at h <;>
        · obtain ⟨ty, _, h⟩ := Except.bind_eq_ok.mp h
          cases Except.pure_eq_ok.mp h
          exact hvalue each_driverCall

/-- The names of the user stand where no local name but those of the computation is in scope. -/
theorem Computation.each_outline {c : Computation}
    (hquery : ∀ params call, c = .query params call →
      ∃ op written sql, queryCall op written sql = .ok call)
    (hnames : ∀ x ∈ c.names, P ⟨rawName x, scope⟩) :
    (c.outline ctx).Each P scope ↔ ∀ x ∈ c.names, P ⟨rawName x, c.locals ++ scope⟩ := by
  cases c with
  | query params call =>
    obtain ⟨op, written, sql, hcall⟩ := hquery params call rfl
    refine iff_of_true (each_bindParams.mpr ⟨?_, each_queryCall hcall⟩) hnames
    simpa using show ∀ x ∈ params, P ⟨rawName x, scope⟩ from hnames
  | one param statement fields result =>
    have hparam := hnames param List.mem_cons_self
    exact iff_of_true (each_singleBody (each_rowBlock fun _ => hparam)) hnames
  | each param statement fields result =>
    have hparam := hnames param List.mem_cons_self
    refine (each_batchBody (each_rowBlock fun hitem => ?_) fun _ => hparam).trans ?_
    · exact absurd hitem (by decide)
    · simp [names, locals]

/-- The computation of a body is used, rather than a message that it cannot be waited for. -/
def IsComputed (ctx : Context) (op : Operation) : Prop :=
  op.suspension = .async ∨ ctx.target.supportsBlocking = true

theorem each_deliver {op : Operation} {continuation : Option Binding} {compute : Body}
    {value : Expr} (hvalue : ∀ {scope}, value.Each P scope) :
    (deliver ctx op continuation compute value).block.Each P scope ↔
      (IsComputed ctx op → compute.block.Each P scope ∧
        (op.isContinuationStyle = true →
          ∀ b ∈ continuation, isRaw b.name = true → P ⟨b.name, "value" :: scope⟩)) := by
  unfold deliver IsComputed Operation.isContinuationStyle
  rcases hsuspension : op.suspension with _ | _ | ⟨param, ty⟩
  · cases hblocking : ctx.target.supportsBlocking <;>
      simp [Body.block, Expr.each_block, Stmt.bound, hvalue, blockOn, Body.asyncBlock]
  · simp [Body.block, Expr.each_block, Stmt.bound, hvalue]
  · cases hblocking : ctx.target.supportsBlocking <;> cases continuation <;>
      simp [Body.block, Expr.each_block, Stmt.bound, hvalue, blockOn, Body.asyncBlock,
        LocalPattern.names]

/-! ## Wrappers -/

def RecordSource.spelled (f : String → String) : RecordSource → RecordSource
  | .statement => .statement
  | .one param => .one (f param)
  | .each param => .each (f param)

def Recording.spelled (f : String → String) (r : Recording) : Recording :=
  { r with source := r.source.spelled f }

/-- The parameter that records are made from. -/
def RecordSource.param? : RecordSource → Option String
  | .statement => none
  | .one param | .each param => some param

/-- The body of a method of a wrapper. -/
def wrapperOutline (ctx : Context) (op : Operation) (h : MethodHeader) (r : Option Recording) :
    Outline := fun f =>
  match r with
  | some r => Replication.recordingBody ctx op (h.spelled f) (r.spelled f)
  | none => { result := some (Replication.innerCall op (h.spelled f)) }

theorem MethodHeader.spelled_id (h : MethodHeader) : h.spelled id = h := by
  obtain ⟨_, _, _, params, continuation, _⟩ := h
  have hparams : params.map (·.spelled id) = params := List.map_id params
  cases continuation <;> simp only [spelled, hparams] <;> rfl

theorem Recording.spelled_id (r : Recording) : r.spelled id = r := by
  obtain ⟨_, _, _, source⟩ := r
  cases source <;> rfl

theorem MethodHeader.bindings_spelled (f : String → String) (h : MethodHeader) :
    (h.spelled f).bindings = h.bindings.map (·.spelled f) := by
  unfold bindings spelled
  cases h.continuation <;> simp

/-- A call of the wrapped implementation uses each parameter. -/
theorem each_innerCall {op : Operation} {h : MethodHeader} :
    (Replication.innerCall op (h.spelled rawName)).Each P scope ↔
      ∀ b ∈ h.bindings, P ⟨rawName b.name, scope⟩ := by
  unfold Replication.innerCall
  split <;> simp [MethodHeader.forwarded, MethodHeader.bindings_spelled]

theorem each_recordExpr {r : Recording} {item : String}
    (hitem : isRaw item = true → P ⟨item, scope⟩) : (r.recordExpr ctx item).Each P scope := by
  unfold Recording.recordExpr
  split
  · simp
  · simpa [Recording.copied] using hitem

theorem each_expr {r : Recording}
    (hparam : ∀ x ∈ r.source.param?, isRaw x = true → P ⟨x, scope⟩) :
    (r.expr ctx).Each P scope := by
  unfold Recording.expr
  split
  · have hstatement : isRaw "" = false := by decide
    simpa [Recording.single] using each_recordExpr (by simp [hstatement])
  · next param hsource =>
    simpa [Recording.single] using each_recordExpr (hparam param (by rw [hsource]; rfl))
  · next param hsource =>
    have hitem {scope : List String} : (r.recordExpr ctx "item").Each P scope :=
      each_recordExpr fun hraw => absurd hraw (by decide)
    simpa [Expr.collected, Expr.mapped, itemsOf, hitem] using hparam param (by rw [hsource]; rfl)

theorem each_enqueueAll {queue : Expr} :
    Stmt.EachIn P scope [Replication.enqueueAll ctx queue] ↔ queue.Each P ("record" :: scope) := by
  simp +decide [Replication.enqueueAll]

/-- The local names that are in scope where a wrapper that records passes on its parameters. -/
def recordingLocals (op : Operation) : List String :=
  if op.isContinuationStyle then ["queue", "records"] else ["records"]

theorem each_recordingBody (hP : Use.IsScoping P) {op : Operation} {h : MethodHeader}
    {r : Recording} (hstyle : op.isContinuationStyle = h.continuation.isSome)
    (hbindings : ∀ b ∈ h.bindings, P ⟨rawName b.name, scope⟩)
    (hparam : ∀ x ∈ r.source.param?, P ⟨rawName x, scope⟩) :
    (Replication.recordingBody ctx op (h.spelled rawName) (r.spelled rawName)).block.Each P scope ↔
      ∀ b ∈ h.bindings, columnName b.name ∉ recordingLocals op := by
  have hrecords : ((r.spelled rawName).expr ctx).Each P scope := by
    refine each_expr fun x hx _ => ?_
    obtain ⟨table, operation, attachment, source⟩ := r
    cases source with
    | statement => cases hx
    | one param | each param =>
      cases hx
      exact hparam param rfl
  have hone {b : Binding} (hb : b ∈ h.bindings) :
      P ⟨rawName b.name, recordingLocals op ++ scope⟩ ↔ columnName b.name ∉ recordingLocals op := by
    have hplain : ∀ x ∈ recordingLocals op, isRaw x = false := by
      unfold recordingLocals
      split <;> decide
    rw [hP.append hplain, columnName_rawName, and_iff_left (hbindings b hb)]
  refine Iff.trans ?_ (forall₂_congr fun b hb => hone hb)
  unfold Replication.recordingBody
  cases hcont : h.continuation with
  | none =>
    have hlocals : recordingLocals op = ["records"] := by simp [recordingLocals, hstyle, hcont]
    have hspelled : (h.spelled rawName).continuation = none := by simp [MethodHeader.spelled, hcont]
    simp +decide [hspelled, hlocals, Body.block, Expr.each_block, Replication.bindRecords, hrecords,
      Stmt.bound, Stmt.names, LocalPattern.names, each_innerCall, each_enqueueAll]
  | some cont =>
    have hlocals : recordingLocals op = ["queue", "records"] := by
      simp [recordingLocals, hstyle, hcont]
    have hspelled : (h.spelled rawName).continuation = some (cont.spelled rawName) := by
      simp [MethodHeader.spelled, hcont]
    have hmem : cont ∈ h.bindings := by simp [MethodHeader.bindings, hcont]
    simp +decide [hspelled, hlocals, Body.block, Expr.each_block, Replication.bindRecords, hrecords,
      Stmt.bound, Stmt.names, LocalPattern.names, each_innerCall, each_enqueueAll]
    constructor
    · rintro ⟨hcont, hall⟩ b hb
      rcases hP.of_raw (hall b hb) with hsame | hb
      · rw [columnName_rawName, columnName_rawName] at hsame
        rwa [rawName, ← hsame]
      · exact hb
    · intro hall
      exact ⟨hall cont hmem, fun b hb => hP.raw (isRaw_rawName _) (hall b hb)⟩

/-! ## Handlers -/

/-- The identifier of a parameter. -/
def identifierOf (param : LogicalParam) : String := (parseName param.name).getD ""

/-- The argument of a handler for a parameter. -/
def argumentAs (ctx : Context) (f : String → String) (param : LogicalParam) : Expr :=
  if param.dbType then .number ctx.dialect.discriminator
  else Handler.passed param.ty (f (identifierOf param))

/-- The body of a handler. -/
def handlerOutline (ctx : Context) (op : Operation) (request method : String)
    (conversion : Conversion) : Outline := fun f =>
  Handler.bodyOf ctx request ((RequestStruct.sentParams op).map fun p => f (identifierOf p))
    (Handler.callOf ctx op method (op.params.map (argumentAs ctx f)))
    (conversion.apply (.var "value"))

/-- The names of a handler that are in scope where it takes its request apart. -/
def handlerNames : List String := ["request", "dao"]

/-- The local names that are in scope where a handler passes on what it is sent. -/
def handlerLocals (op : Operation) : List String :=
  if op.isContinuationStyle then ["cont", "pending"] else []

theorem map_identifierOf {params : List LogicalParam} {names : List String}
    (h : List.Forall₂ (fun param name => parseName param.name = some name) params names) :
    params.map identifierOf = names := by
  induction h with
  | nil => rfl
  | cons hname _ ih => simp [identifierOf, hname, ih]

theorem argumentAs_of_argumentOf {param : LogicalParam} {e : Expr}
    (h : Handler.argumentOf ctx param = .ok e) : argumentAs ctx id param = e := by
  unfold Handler.argumentOf at h
  unfold argumentAs
  split at h
  · next hdbType =>
    cases h
    rw [if_pos hdbType]
  · next hdbType =>
    obtain ⟨name, hname, h⟩ := Except.bind_eq_ok.mp h
    cases Except.pure_eq_ok.mp h
    rw [if_neg hdbType, identifierOf, identifier_eq_ok.mp hname, Option.getD_some, id_eq]

theorem each_passed {ty : TypeRef} {x : String} :
    (Handler.passed ty x).Each P scope ↔ (isRaw x = true → P ⟨x, scope⟩) := by
  unfold Handler.passed
  split
  · simp
  · split <;> simp

theorem each_arguments (ctx : Context) {op : Operation} :
    (∀ e ∈ op.params.map (argumentAs ctx rawName), e.Each P scope) ↔
      ∀ p ∈ RequestStruct.sentParams op, P ⟨rawName (identifierOf p), scope⟩ := by
  simp only [List.forall_mem_map, RequestStruct.sentParams, List.mem_filter, and_imp]
  refine forall₂_congr fun p hp => ?_
  unfold argumentAs
  cases hdbType : p.dbType <;> simp [each_passed]

theorem each_callOf {op : Operation} {method : String} {args : List Expr} :
    (Handler.callOf ctx op method args).Each P scope ↔
      ∀ e ∈ args, e.Each P (handlerLocals op ++ scope) := by
  unfold Handler.callOf handlerLocals Operation.isContinuationStyle
  cases op.suspension with
  | blocking => simp +decide
  | async => simp +decide [blockOn]
  | continuation param ty =>
    simp +decide [blockOn, Expr.each_block, Stmt.names, LocalPattern.names, or_imp, forall_and]

theorem each_handlerOutline {op : Operation} {request method : String} {conversion : Conversion} :
    (handlerOutline ctx op request method conversion).Each P scope ↔
      ∀ p ∈ RequestStruct.sentParams op, P ⟨rawName (identifierOf p), handlerLocals op ++
        (RequestStruct.sentParams op).map (fun p => rawName (identifierOf p)) ++ scope⟩ := by
  rw [← each_arguments ctx]
  unfold Outline.Each handlerOutline
  simp +decide [Handler.bodyOf, Body.block, Expr.each_block, Stmt.bound, LocalPattern.names,
    Stmt.names, each_callOf]

end Emission

end DaoGen
