import DaoGen.Emission.Endpoint
import DaoGen.Proofs.Emission.Conformance
import DaoGen.Proofs.Extraction.Method

/-!
# Contracts of endpoints

What a client of an endpoint sees, the fields of the requests and the type of the answers, follows
from the parameters that the caller of a method supplies and from the normal form of its result. The
way in which the method delivers the result only shows where the handler calls it.
-/
namespace DaoGen

open Code

/-! ## Methods -/

namespace Signature

/-- A method takes some parameters from its caller and delivers a result of some type: it returns
the result, at once or later, or hands it to a continuation that comes after the parameters. -/
inductive Delivers (signature : Signature) (params : List Param) (result : TypeRef) : Prop where
  | returned (hparams : signature.params = params)
    (hlast : ∀ param, params.getLast? = some param → param.ty.isContinuation = false)
    (hresult : signature.returns.getD .unit = result)
  | handedOver (param : Param) (projection : Projection)
    (hparams : signature.params = params ++ [param])
    (hname : param.ty.simpleName = "Continuation")
    (hargs : param.ty.args = [.type projection result])

variable {signature : Signature} {params : List Param} {result : TypeRef}

/-- The parameters and the result are what the method is taken to have. -/
theorem Delivers.declared (h : signature.Delivers params result) :
    signature.logicalParams = params ∧ signature.result = result := by
  cases h with
  | returned hparams hlast hresult =>
    have hnone : signature.continuation? = none := by
      rw [continuation?, hparams, Option.filter_eq_none_iff]
      simpa using hlast
    exact ⟨(logicalParams_of_none hnone).trans hparams, by rw [Signature.result, hnone, hresult]⟩
  | handedOver param projection hparams hname hargs =>
    obtain ⟨hsome, hlogical⟩ := continuation?_append hparams ⟨hname, projection, result, hargs⟩
    have hfirst : param.ty.firstArg? = some result := by
      simp [TypeRef.firstArg?, hargs, TypeArg.ty?]
    exact ⟨hlogical, by rw [Signature.result, hsome]; simp [hfirst]⟩

end Signature

/-! ## Calls -/

namespace Code

/-- Whether an expression is a variable of the given name. -/
def Expr.isVar (x : String) : Expr → Bool
  | .var y => y == x
  | _ => false

mutual

/-- The calls of methods of a variable: the name of each method, and the arguments. -/
def Expr.callsOn (x : String) : Expr → List (String × List Expr)
  | .var _ | .path _ | .number _ | .text _ => []
  | .borrow e | .deref e | .paren e | .field e _ | .await e | .cast e _ => e.callsOn x
  | .method receiver name _ args =>
    if receiver.isVar x then [(name, args)] else receiver.callsOn x ++ Expr.callsOnList x args
  | .call _ args | .array args | .macroCall _ _ args => Expr.callsOnList x args
  | .closure _ _ body => body.callsOn x
  | .block _ stmts result =>
    Stmt.callsOnList x stmts ++
      match result with
      | some e => e.callsOn x
      | none => []

def Expr.callsOnList (x : String) : List Expr → List (String × List Expr)
  | [] => []
  | e :: rest => e.callsOn x ++ Expr.callsOnList x rest

def Stmt.callsOn (x : String) : Stmt → List (String × List Expr)
  | .bind _ _ value => value.callsOn x
  | .run e => e.callsOn x
  | .each _ items body => items.callsOn x ++ Stmt.callsOnList x body
  | .increase _ amount => amount.callsOn x

def Stmt.callsOnList (x : String) : List Stmt → List (String × List Expr)
  | [] => []
  | s :: rest => s.callsOn x ++ Stmt.callsOnList x rest

end

/-- The calls of methods of a variable in a function body. -/
def Body.callsOn (x : String) (body : Body) : List (String × List Expr) := body.block.callsOn x

end Code

/-- A method of something else than the variable is not called on it. -/
theorem Code.Expr.callsOn_method {x : String} {receiver : Expr} (h : receiver.isVar x = false)
    (name : String) (types : List Token) (args : List Expr) :
    (Expr.method receiver name types args).callsOn x =
      receiver.callsOn x ++ Expr.callsOnList x args := by
  rw [Expr.callsOn, h, if_neg Bool.false_ne_true]

/-- Mapping the items of a value calls what the value calls and what is done with an item calls. -/
theorem Code.Expr.callsOn_mapped {x : String} {value : Expr} (h : value.isVar x = false)
    (name : String) (body : Expr) :
    (value.mapped name body).callsOn x = value.callsOn x ++ body.callsOn x := by
  rw [mapped, invoke, callsOn_method h]
  simp [callsOnList, callsOn]

/-- A converted value calls what the value calls: a conversion only calls methods of the value and
of a variable of its own. -/
theorem Conversion.callsOn_apply {x : String} (hx : x ≠ "v") (c : Conversion) {value : Expr}
    (hvalue : value.isVar x = false) : (c.apply value).callsOn x = value.callsOn x := by
  have hv : (Expr.var "v").isVar x = false := by simpa [Expr.isVar] using hx.symm
  induction c generalizing value with
  | same => rfl
  | wrap carrier inner ih => simp [apply, Expr.callsOn, Expr.callsOnList, ih hvalue]
  | unwrap carrier inner ih =>
    have hunwrapped : (unwrapped carrier value).isVar x = false ∧
        (unwrapped carrier value).callsOn x = value.callsOn x := by
      cases carrier <;> simp [unwrapped, Expr.isVar, Expr.callsOn, Expr.callsOnList]
    rw [apply, ih hunwrapped.1, hunwrapped.2]
  | mapOption inner ih =>
    rw [apply, Expr.callsOn_mapped hvalue, ih hv, Expr.callsOn, List.append_nil]
  | mapList inner ih =>
    have hitems : (value.invoke "into_iter" []).callsOn x = value.callsOn x := by
      rw [Expr.invoke, Expr.callsOn_method hvalue, Expr.callsOnList, List.append_nil]
    have hmapped :
        ((value.invoke "into_iter" []).mapped "v" (inner.apply (.var "v"))).callsOn x = _ :=
      Expr.callsOn_mapped rfl "v" (inner.apply (.var "v"))
    rw [apply, Expr.collected, Expr.callsOn_method rfl, hmapped, hitems, ih hv]
    simp [Expr.callsOn, Expr.callsOnList]
  | into => simp [apply, Expr.callsOn, Expr.callsOnList]

namespace Emission

/-! ## Endpoints -/

/-- A context with an empty model. -/
def Context.empty : Context := ⟨{}, .jvm, .sqlite, "replikit"⟩

/-- The parameters that requests carry. -/
def sentParams (params : List Param) : List Param :=
  params.filter fun param => ! Annotation.hasDbType param.annotations

/-- What the handler of a method passes on besides the arguments for the parameters that callers
supply: its own continuation, if the result is handed over. -/
def ownArguments (signature : Signature) : List Expr :=
  if signature.continuation?.isSome then [.var "cont"] else []

/-- A field of requests carries a parameter: it has its name and its type on the wire. -/
def Carries (param : Param) (field : Binding) : Prop :=
  parseName param.name = some field.name ∧ parseType param.ty.wire.render = some field.ty

/-- An argument is the one for a parameter. -/
def Supplies (ctx : Context) (param : Param) (argument : Expr) : Prop :=
  Handler.argumentOf ctx (.ofParam param) = .ok argument

/-- The contract of an endpoint for some parameters and a result in normal form: what requests
carry, what the DAO is called with, and what the answer is. -/
structure Endpoint.HasContract (ctx : Context) (params : List Param) (result : TypeRef)
    (own : List Expr) (e : Endpoint) : Prop where
  fields : List.Forall₂ Carries (sentParams params) e.request.fields
  call : ∃ method arguments, e.handler.body.callsOn "dao" = [(method, arguments ++ own)] ∧
    List.Forall₂ (Supplies ctx) params arguments
  response : parseType result.render = some e.handler.response

/-- The handler of a method calls it once. -/
theorem callsOn_callOf (ctx : Context) {signature : Signature} {op : Operation}
    (hop : Suspension.ofSignature signature = .ok op.suspension) (method : String)
    (arguments : List Expr) :
    (Handler.callOf ctx op method arguments).callsOn "dao" =
      [(method, arguments ++ ownArguments signature)] := by
  rcases Suspension.ofSignature_ok hop with ⟨param, hsome, _, hsuspension⟩ | ⟨hnone, hsuspension⟩
  · simp [Handler.callOf, hsuspension, ownArguments, hsome, blockOn, Expr.invoke, Expr.isVar,
      Expr.callsOn, Expr.callsOnList, Stmt.callsOn, Stmt.callsOnList]
  · cases hasync : signature.isAsync <;>
      simp [Handler.callOf, hsuspension, hasync, ownArguments, hnone, blockOn, Expr.invoke,
        Expr.isVar, Expr.callsOn, Expr.callsOnList]

/-- A handler calls the DAO where its request has been taken apart, and nowhere else. -/
theorem callsOn_bodyOf (ctx : Context) (request : String) (fields : List String) (call : Expr)
    (conversion : Conversion) :
    (Handler.bodyOf ctx request fields call (conversion.apply (.var "value"))).callsOn "dao" =
      call.callsOn "dao" := by
  have hvalue : (conversion.apply (.var "value")).callsOn "dao" = [] := by
    rw [conversion.callsOn_apply (by decide) (by decide), Expr.callsOn]
  simp [Handler.bodyOf, Body.callsOn, Body.block, Stmt.bound, Expr.callsOn, Expr.callsOnList,
    Stmt.callsOn, Stmt.callsOnList, hvalue]

/-- The fields of requests have the names of the parameters that are sent, and their types on the
wire. -/
theorem RequestStruct.fields_ofOperation {dao : QualifiedName} {op : Operation} {name : String}
    {request : RequestStruct} (h : ofOperation dao op name = .ok request) :
    List.Forall₂ (fun (param : LogicalParam) (field : Binding) =>
      parseName param.name = some field.name ∧ parseType param.ty.wire.render = some field.ty)
      (sentParams op) request.fields := by
  obtain ⟨fields, hfields, h⟩ := Except.bind_eq_ok.mp h
  cases Except.pure_eq_ok.mp h
  refine (Except.forall₂_of_mapM hfields).imp fun param field h => ?_
  obtain ⟨name, hname, h⟩ := Except.bind_eq_ok.mp h
  obtain ⟨ty, hty, h⟩ := Except.bind_eq_ok.mp h
  cases Except.pure_eq_ok.mp h
  exact ⟨identifier_eq_ok.mp hname, typeTokens_eq_ok.mp hty⟩

/-- The fields of requests are made of the parameters that are sent. -/
theorem RequestStruct.ofOperation_ok {dao : QualifiedName} {op : Operation} {name : String}
    {request : RequestStruct} (h : ofOperation dao op name = .ok request) {params : List Param}
    (hparams : op.params = params.map .ofParam) :
    List.Forall₂ Carries (Emission.sentParams params) request.fields := by
  have hsent : RequestStruct.sentParams op = (Emission.sentParams params).map .ofParam := by
    rw [RequestStruct.sentParams, hparams, List.filter_map]
    rfl
  have hfields := fields_ofOperation h
  rw [hsent, List.forall₂_map_left_iff] at hfields
  exact hfields

/-- A handler takes apart the fields of the parameters that are sent and calls the operation with an
argument for each parameter. -/
theorem Handler.ofOperation_ok {ctx : Context} {interface : List Token} {dao : QualifiedName}
    {op : Operation} {name request : String} {handler : Handler}
    (h : ofOperation ctx interface dao op name request = .ok handler) :
    ∃ method fields arguments conversion, parseName op.name = some method ∧
      List.Forall₂ (fun param field => parseName param.name = some field)
        (RequestStruct.sentParams op) fields ∧
      List.Forall₂ (fun param argument => argumentOf ctx param = .ok argument) op.params arguments ∧
      Conversion.ofType .toCanonical op.declaredResult = .ok conversion ∧
      parseType op.returnType.render = some handler.response ∧
      handler.body = bodyOf ctx request fields (callOf ctx op method arguments)
        (conversion.apply (.var "value")) := by
  obtain ⟨method, hmethod, h⟩ := Except.bind_eq_ok.mp h
  obtain ⟨fields, hfields, h⟩ := Except.bind_eq_ok.mp h
  obtain ⟨arguments, harguments, h⟩ := Except.bind_eq_ok.mp h
  split at h
  · cases h
  · next conversion hconversion =>
    obtain ⟨response, hresponse, h⟩ := Except.bind_eq_ok.mp h
    cases Except.pure_eq_ok.mp h
    exact ⟨method, fields, arguments, conversion, identifier_eq_ok.mp hmethod,
      (Except.forall₂_of_mapM hfields).imp fun _ _ => identifier_eq_ok.mp,
      Except.forall₂_of_mapM harguments, hconversion, typeTokens_eq_ok.mp hresponse, rfl⟩

theorem RequestStruct.name_of_ofOperation {dao : QualifiedName} {op : Operation} {name : String}
    {request : RequestStruct} (h : ofOperation dao op name = .ok request) :
    request.name = name := by
  obtain ⟨fields, _, h⟩ := Except.bind_eq_ok.mp h
  cases Except.pure_eq_ok.mp h
  rfl

/-- An endpoint has the request and the handler of its operation, which share a name. -/
theorem Endpoint.ofOperation_ok {ctx : Context} {interface : List Token} {dao : QualifiedName}
    {op : Operation} {e : Endpoint} (h : ofOperation ctx interface dao op = .ok e) :
    ∃ name, RequestStruct.ofOperation dao op e.request.name = .ok e.request ∧
      Handler.ofOperation ctx interface dao op name e.request.name = .ok e.handler := by
  obtain ⟨requestName, _, h⟩ := Except.bind_eq_ok.mp h
  obtain ⟨handlerName, _, h⟩ := Except.bind_eq_ok.mp h
  obtain ⟨request, hrequest, h⟩ := Except.bind_eq_ok.mp h
  obtain ⟨handler, hhandler, h⟩ := Except.bind_eq_ok.mp h
  cases Except.pure_eq_ok.mp h
  obtain rfl := RequestStruct.name_of_ofOperation hrequest
  exact ⟨handlerName, hrequest, hhandler⟩

/-- The endpoint of an accepted method has the contract of its parameters and its result. -/
theorem Endpoint.hasContract_of_ofOperation {source : DeclarationSource} {scope : Scope}
    {member : Member} {op : Operation} (hop : Operation.ofMember source scope member = .ok op)
    {signature : Signature} (hkind : member.kind = .method signature) {params : List Param}
    {result : TypeRef} (hdelivers : signature.Delivers params result) {ctx : Context}
    {interface : List Token} {dao : QualifiedName} {e : Endpoint}
    (h : ofOperation ctx interface dao op = .ok e) :
    e.HasContract ctx params result.normalize (ownArguments signature) := by
  obtain ⟨signature', hkind', hmethod⟩ := Operation.ofMember_ok hop
  obtain rfl : signature' = signature := MemberKind.method.inj (hkind'.symm.trans hkind)
  obtain ⟨hlogical, hresult⟩ := hdelivers.declared
  obtain ⟨_, hparams, hsuspension, _, _⟩ := Operation.ofMethod_declared hmethod
  rw [hlogical] at hparams
  obtain ⟨handlerName, hrequest, hhandler⟩ := ofOperation_ok h
  obtain ⟨method, fields, arguments, conversion, _, _, harguments, _, hresponse, hbody⟩ :=
    Handler.ofOperation_ok hhandler
  refine ⟨RequestStruct.ofOperation_ok hrequest hparams, ⟨method, arguments, ?_, ?_⟩, ?_⟩
  · rw [hbody, callsOn_bodyOf, callsOn_callOf ctx hsuspension]
  · rw [hparams, List.forall₂_map_left_iff] at harguments
    exact harguments
  · rw [← hresult, ← Operation.returnType_ofMethod hmethod]
    exact hresponse

/-- Endpoints of one DAO have the same contract if their methods take the same parameters and
deliver results with the same normal form, in whatever way they do: their requests have the same
fields, they call the DAO with the same arguments, up to a continuation of their own, and their
answers are of the same type. -/
theorem Endpoint.contracts_agree {source : DeclarationSource} {scope : Scope} {d : Declaration}
    {dao : Dao} (hdao : Dao.ofDeclaration source scope d = .ok dao) {members : List Member}
    (hmembers : source.members d = .ok members) {i j : Nat} {m₁ m₂ : Member}
    (hm₁ : members[i]? = some m₁) (hm₂ : members[j]? = some m₂) {s₁ s₂ : Signature}
    (hs₁ : m₁.kind = .method s₁) (hs₂ : m₂.kind = .method s₂) {params : List Param}
    {r₁ r₂ : TypeRef} (hd₁ : s₁.Delivers params r₁) (hd₂ : s₂.Delivers params r₂)
    (hr : r₁.normalize = r₂.normalize) {op₁ op₂ : Operation} (hop₁ : dao.operations[i]? = some op₁)
    (hop₂ : dao.operations[j]? = some op₂) {ctx : Context} {interface : List Token}
    {e₁ e₂ : Endpoint} (he₁ : ofOperation ctx interface dao.name op₁ = .ok e₁)
    (he₂ : ofOperation ctx interface dao.name op₂ = .ok e₂) :
    e₁.request.fields = e₂.request.fields ∧
      List.Forall₂ Carries (sentParams params) e₁.request.fields ∧
      (∃ method₁ method₂ arguments, List.Forall₂ (Supplies ctx) params arguments ∧
        e₁.handler.body.callsOn "dao" = [(method₁, arguments ++ ownArguments s₁)] ∧
        e₂.handler.body.callsOn "dao" = [(method₂, arguments ++ ownArguments s₂)]) ∧
      e₁.handler.response = e₂.handler.response ∧
      parseType r₁.normalize.render = some e₁.handler.response := by
  obtain ⟨_, members', hmembers', hoperations⟩ := Dao.ofDeclaration_ok hdao
  obtain rfl : members' = members := Except.ok.inj (hmembers'.symm.trans hmembers)
  have hcontract {k : Nat} {m : Member} (hm : members'[k]? = some m) {s : Signature}
      (hs : m.kind = .method s) {r : TypeRef} (hd : s.Delivers params r) {op : Operation}
      (hop : dao.operations[k]? = some op) {e : Endpoint}
      (he : ofOperation ctx interface dao.name op = .ok e) :
      e.HasContract ctx params r.normalize (ownArguments s) := by
    obtain ⟨op', hop', hmember⟩ := hoperations.exists_getElem? hm
    obtain rfl : op' = op := Option.some.inj (hop'.symm.trans hop)
    exact hasContract_of_ofOperation hmember hs hd he
  obtain ⟨hfields₁, ⟨method₁, arguments, hcall₁, harguments⟩, hresponse₁⟩ :=
    hcontract hm₁ hs₁ hd₁ hop₁ he₁
  obtain ⟨hfields₂, ⟨method₂, arguments₂, hcall₂, harguments₂⟩, hresponse₂⟩ :=
    hcontract hm₂ hs₂ hd₂ hop₂ he₂
  have hsame : arguments = arguments₂ :=
    List.right_unique_forall₂' (fun _ _ _ h h' => Except.ok.inj (h.symm.trans h')) harguments
      harguments₂
  refine ⟨?_, hfields₁, ⟨method₁, method₂, arguments, harguments, hcall₁, hsame ▸ hcall₂⟩, ?_,
    hresponse₁⟩
  · refine List.right_unique_forall₂' ?_ hfields₁ hfields₂
    rintro param ⟨name, ty⟩ ⟨name', ty'⟩ ⟨hname, hty⟩ ⟨hname', hty'⟩
    obtain rfl : name = name' := Option.some.inj (hname.symm.trans hname')
    obtain rfl : ty = ty' := Option.some.inj (hty.symm.trans hty')
    rfl
  · exact Option.some.inj (hresponse₁.symm.trans (hr ▸ hresponse₂))

/-- An asynchronous query and one with a continuation; the number of the dialect is not sent. -/
theorem Endpoint.contracts_agree_load :
    let params : List Param :=
      [⟨"name", .byRef (.named "str"), []⟩, ⟨"db", .named "i32", [.dbType]⟩]
    let boxed : TypeRef := .generic "Option" [.generic "Box" [.named "Tag"]]
    let plain : TypeRef := .generic "std::option::Option" [.named "Tag"]
    let load : Signature := { params, returns := some boxed, isAsync := true }
    let fetch : Signature :=
      { params := params ++ [⟨"done", .generic "rt::Continuation" [plain], []⟩] }
    let members : List Member :=
      [⟨0, 0, "load", .method load, none⟩, ⟨0, 1, "fetch", .method fetch, none⟩]
    let d : Declaration := ⟨0, .dao, ⟨"db::TagDao"⟩, [.dao], none⟩
    let source : DeclarationSource :=
      ⟨[d], fun _ => .ok members, fun _ => [.query "SELECT * FROM tag WHERE name = :name"]⟩
    let ctx : Context := ⟨{}, .jvm, .postgres, "replikit"⟩
    ∃ dao op₁ op₂ e₁ e₂, Dao.ofDeclaration source ⟨{}, []⟩ d = .ok dao ∧
      dao.operations = [op₁, op₂] ∧ ofOperation ctx [] dao.name op₁ = .ok e₁ ∧
      ofOperation ctx [] dao.name op₂ = .ok e₂ ∧ load.Delivers params boxed ∧
      fetch.Delivers params plain ∧ boxed.normalize = plain.normalize ∧
      e₁.request.fields = e₂.request.fields ∧ e₁.handler.response = e₂.handler.response ∧
      ∃ method₁ method₂ arguments, arguments.length = 2 ∧
        e₁.handler.body.callsOn "dao" = [(method₁, arguments)] ∧
        e₂.handler.body.callsOn "dao" = [(method₂, arguments ++ [.var "cont"])] := by
  intro params boxed plain load fetch members d source ctx
  have hany : (Dao.ofDeclaration source ⟨{}, []⟩ d).toOption.any (fun dao =>
      dao.operations.length == 2 &&
        dao.operations.all fun op => (ofOperation ctx [] dao.name op).toOption.isSome) = true := by
    decide +kernel
  obtain ⟨dao, hdao, hunits⟩ := Except.exists_of_any hany
  obtain ⟨hlength, hunits⟩ := Bool.and_eq_true_iff.mp hunits
  obtain ⟨op₁, op₂, hoperations⟩ := List.length_eq_two.mp (beq_iff_eq.mp hlength)
  rw [hoperations, List.all_cons, List.all_cons, List.all_nil, Bool.and_true] at hunits
  obtain ⟨he₁, he₂⟩ := Bool.and_eq_true_iff.mp hunits
  obtain ⟨e₁, he₁⟩ := Option.isSome_iff_exists.mp he₁
  obtain ⟨e₂, he₂⟩ := Option.isSome_iff_exists.mp he₂
  rw [Except.toOption_eq_some] at he₁ he₂
  have hload : load.Delivers params boxed :=
    .returned rfl (fun param h => by cases h; decide +kernel) rfl
  have hfetch : fetch.Delivers params plain := .handedOver _ .invariant rfl (by decide +kernel) rfl
  have hnormal : boxed.normalize = plain.normalize := by decide +kernel
  obtain ⟨hfields, _, ⟨method₁, method₂, arguments, hlength, hcall₁, hcall₂⟩, hresponse, _⟩ :=
    contracts_agree (i := 0) (j := 1) hdao rfl rfl rfl rfl rfl hload hfetch hnormal
      (by rw [hoperations]; rfl) (by rw [hoperations]; rfl) he₁ he₂
  refine ⟨dao, op₁, op₂, e₁, e₂, hdao, hoperations, he₁, he₂, hload, hfetch, hnormal, hfields,
    hresponse, method₁, method₂, arguments, hlength.length_eq.symm, ?_, ?_⟩
  · rwa [ownArguments, if_neg (by decide +kernel), List.append_nil] at hcall₁
  · rwa [ownArguments, if_pos (by decide +kernel)] at hcall₂

end Emission

end DaoGen
