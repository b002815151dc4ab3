import DaoGen.Proofs.Emission.Methods
import DaoGen.Proofs.Extraction.Accepted

/-!
# Conformance to interfaces

The implementation and the wrapper of a DAO implement its interface: their methods are those that
the interface leaves without a body, in order, and a method has the same header in both.
-/
namespace DaoGen

namespace Emission

open Code

/-! ## Parameters -/

/-- Parameters of generated code repeat declared ones in order. A last one that is to receive the
result gets its type through the runtime crate. -/
inductive Repeats (runtime : String) : List Param → List Binding → Prop where
  | nil : Repeats runtime [] []
  | continuation {param : Param} {name : String} {carried : TypeRef} {tokens : List Token}
    (hty : param.ty.isContinuation = true) (hname : parseName param.name = some name)
    (hcarried : param.ty.firstArg? = some carried)
    (htokens : parseType carried.render = some tokens) :
    Repeats runtime [param] [⟨name, absolutePath [runtime, "Continuation"] ++ angled tokens⟩]
  | cons {param : Param} {params : List Param} {b : Binding} {bindings : List Binding}
    (hlast : params = [] → param.ty.isContinuation = false)
    (hname : parseName param.name = some b.name) (hty : parseType param.ty.render = some b.ty)
    (hrest : Repeats runtime params bindings) : Repeats runtime (param :: params) (b :: bindings)

namespace Repeats

variable {runtime : String} {params : List Param} {bindings : List Binding}

/-- Parameters that the caller supplies are repeated with their own types. -/
theorem of_forall₂ (hlast : params.getLast?.filter (·.ty.isContinuation) = none)
    (h : List.Forall₂ (fun param b => parseName param.name = some b.name ∧
      parseType param.ty.render = some b.ty) params bindings) :
    Repeats runtime params bindings := by
  induction h with
  | nil => exact .nil
  | @cons param _ params _ hparam _ ih =>
    refine .cons (fun hnil => ?_) hparam.1 hparam.2 (ih ?_)
    · subst hnil
      simpa using hlast
    · cases params with
      | nil => rfl
      | cons next params => rwa [List.getLast?_cons_cons] at hlast

/-- A continuation comes after the parameters that the caller supplies. -/
theorem append_continuation {param : Param} {b : Binding} (hcont : Repeats runtime [param] [b])
    (h : List.Forall₂ (fun param b => parseName param.name = some b.name ∧
      parseType param.ty.render = some b.ty) params bindings) :
    Repeats runtime (params ++ [param]) (bindings ++ [b]) := by
  induction h with
  | nil => exact hcont
  | cons hparam _ ih => exact .cons (fun hnil => by simp at hnil) hparam.1 hparam.2 ih

end Repeats

/-! ## Headers -/

/-- A header is the one of a declared method: the attributes to be copied and no others, in order,
the name, the parameters and the result. -/
structure MethodHeader.Restates (runtime name : String) (annotations : List Annotation)
    (signature : Signature) (header : MethodHeader) : Prop where
  attributes : List.Forall₂ (fun text tokens => lex text = some tokens)
    (annotations |> Annotation.passthroughs) header.attributes
  isAsync : header.isAsync = signature.isAsync
  name : parseName name = some header.name
  bindings : Repeats runtime signature.params header.bindings
  result : Option.Rel (fun ty tokens => parseType ty.render = some tokens) signature.returns
    header.result

/-- A header is the one of a member of an interface. -/
def HasHeader (source : DeclarationSource) (runtime : String) (member : Member)
    (header : MethodHeader) : Prop :=
  ∃ signature, member.kind = .method signature ∧
    header.Restates runtime member.name (source.annotationsOf member) signature

/-- The parameters of an operation with those of its method. -/
theorem Repeats.of_operation {ctx : Context} {signature : Signature} {op : Operation}
    {header : MethodHeader} (hparams : op.params = signature.logicalParams.map .ofParam)
    (hsuspension : Suspension.ofSignature signature = .ok op.suspension)
    (hbindings : MethodHeader.paramsOf op.params = .ok header.params)
    (hcontinuation : MethodHeader.continuationOf ctx op.suspension = .ok header.continuation) :
    Repeats ctx.runtime signature.params header.bindings := by
  have hlogical := MethodHeader.paramsOf_ok hbindings
  rw [hparams, List.forall₂_map_left_iff] at hlogical
  rcases Suspension.ofSignature_ok hsuspension with ⟨param, hparam, _, hop⟩ | ⟨hnone, hop⟩
  · obtain ⟨hsplit, hty⟩ := Signature.params_of_some hparam
    rw [hop] at hcontinuation
    obtain ⟨name, carried, tokens, hheader, hname, hcarried, htokens⟩ :=
      MethodHeader.continuationOf_ok hcontinuation
    rw [hsplit, MethodHeader.bindings, hheader, Option.toList_some]
    exact .append_continuation (.continuation hty hname hcarried htokens) hlogical
  · have hheader : header.continuation = none := by
      rw [hop] at hcontinuation
      cases hasync : signature.isAsync <;> rw [hasync] at hcontinuation <;>
        exact (Except.ok.inj hcontinuation).symm
    rw [Signature.logicalParams_of_none hnone] at hlogical
    rw [MethodHeader.bindings, hheader, Option.toList_none, List.append_nil]
    exact .of_forall₂ hnone hlogical

/-- The header of an operation is the one of its member. -/
theorem hasHeader_of_ofOperation {source : DeclarationSource} {scope : Scope} {member : Member}
    {op : Operation} (hop : Operation.ofMember source scope member = .ok op) {ctx : Context}
    {header : MethodHeader} (hheader : MethodHeader.ofOperation ctx op = .ok header) :
    HasHeader source ctx.runtime member header := by
  obtain ⟨signature, hkind, hmethod⟩ := Operation.ofMember_ok hop
  obtain ⟨hname, hparams, hsuspension, hreturn, hannotations⟩ :=
    Operation.ofMethod_declared hmethod
  obtain ⟨hheaderName, hattributes, hasync, hbindings, hcontinuation, hresult⟩ :=
    MethodHeader.ofOperation_ok hheader
  refine ⟨signature, hkind, ?_, ?_, ?_, ?_, ?_⟩
  · rw [← hannotations]
    exact (Except.forall₂_of_mapM hattributes).imp fun _ _ => attributeTokens_eq_ok.mp
  · rw [hasync]
    rcases Suspension.ofSignature_ok hsuspension with ⟨param, _, hnot, hop⟩ | ⟨_, hop⟩
    · rw [hop, hnot]
      rfl
    · rw [hop]
      cases signature.isAsync <;> rfl
  · exact hname ▸ identifier_eq_ok.mp hheaderName
  · exact .of_operation hparams hsuspension hbindings hcontinuation
  · exact hreturn ▸ MethodHeader.resultOf_ok hresult

/-! ## Methods -/

/-- The generated operations of a DAO are, in order, those of the methods of its interface without
a body. -/
theorem forall₂_abstract {source : DeclarationSource} {scope : Scope} {members : List Member}
    {operations : List Operation}
    (h : List.Forall₂ (fun member op => Operation.ofMember source scope member = .ok op) members
      operations) :
    List.Forall₂ (fun member op => Operation.ofMember source scope member = .ok op)
      (members.filter (·.isAbstract)) (operations.filter (·.isGenerated)) :=
  List.rel_filter (fun _ _ hop => by simp only [Operation.isGenerated_of_ofMember hop]) h

/-- The methods of an implementation have the headers of the generated operations. -/
theorem DaoImpl.forall₂_header {ctx : Context} {dao : Dao} {d : DaoImpl}
    (h : ofDao ctx dao = .ok d) :
    List.Forall₂ (fun op header => MethodHeader.ofOperation ctx op = .ok header)
      (dao.operations.filter (·.isGenerated)) (d.methods.map (·.header)) := by
  rw [List.forall₂_map_right_iff]
  refine (ofDao_ok h).2.2.imp fun op m hm => ?_
  rcases implementationMethod?_ok hm with ⟨_, hnone⟩ | ⟨_, hsome, _, hheader⟩
  · cases hnone
  · cases hsome
    exact hheader

/-- The methods of a wrapper have the headers of the generated operations. -/
theorem Replication.forall₂_header {ctx : Context} {dao : Dao} {r : Replication}
    (h : ofDao ctx dao = .ok r) :
    List.Forall₂ (fun op header => MethodHeader.ofOperation ctx op = .ok header)
      (dao.operations.filter (·.isGenerated)) (r.methods.map (·.header)) := by
  rw [List.forall₂_map_right_iff]
  refine (ofDao_ok h).2.imp fun op m hm => ?_
  rcases method?_ok hm with ⟨_, hnone⟩ | ⟨_, _, hsome, _, hheader, _⟩
  · cases hnone
  · cases hsome
    exact hheader

/-! ## Units -/

/-- The last item of generated code implements an interface for a type by the given methods. -/
def EndsWithImpl (generics interface : List Token) (name : String) (bounds : List Token)
    (methods : List Method) (tokens : List Token) : Prop :=
  words ["impl"] ++ generics ++ interface ++ words ["for", name] ++ bounds ++
    brace (methods.flatMap Method.tokens) <:+ tokens

theorem DaoImpl.endsWithImpl (d : DaoImpl) :
    EndsWithImpl [] d.interface d.name (angled [.lifetime "_"]) d.methods d.tokens := by
  unfold EndsWithImpl tokens
  apply Exists.intro
  simp only [← List.append_assoc, List.append_nil]
  rfl

theorem Replication.endsWithImpl (r : Replication) :
    let generics := angled (commas [words ["D"], words ["Q"]])
    EndsWithImpl generics r.interface r.name
      (generics ++ words ["where"] ++ commas [typed "D" r.interface, typed "Q" r.queueBounds])
      r.methods r.tokens := by
  unfold EndsWithImpl tokens
  apply Exists.intro
  simp only [← List.append_assoc]
  rfl

/-- The methods of the implementation of an accepted DAO and of its wrapper are those that the
interface leaves without a body, one each and in order, with the same headers. -/
theorem conforms_ofDeclaration {source : DeclarationSource} {scope : Scope} {d : Declaration}
    {dao : Dao} (hdao : Dao.ofDeclaration source scope d = .ok dao) (ctx : Context)
    (dialect : Dialect) {impl : DaoImpl} (himpl : DaoImpl.ofDao ctx dao = .ok impl)
    {wrapper : Replication}
    (hwrapper : Replication.ofDao { ctx with dialect := dialect } dao = .ok wrapper) :
    ∃ members interface, source.members d = .ok members ∧
      parsePath ("crate::" ++ d.name.path) = some interface ∧
      List.Forall₂ (HasHeader source ctx.runtime) (members.filter (·.isAbstract))
        (impl.methods.map (·.header)) ∧
      wrapper.methods.map (·.header) = impl.methods.map (·.header) ∧
      EndsWithImpl [] interface impl.name (angled [.lifetime "_"]) impl.methods impl.tokens ∧
      ∃ generics bounds,
        EndsWithImpl generics interface wrapper.name bounds wrapper.methods wrapper.tokens := by
  obtain ⟨hname, members, hmembers, hoperations⟩ := Dao.ofDeclaration_ok hdao
  have hinterface := cratePath_eq_ok.mp (DaoImpl.ofDao_ok himpl).2.1
  have hinterface' := cratePath_eq_ok.mp (Replication.ofDao_ok hwrapper).1
  have hheaders := DaoImpl.forall₂_header himpl
  -- headers do not depend on the dialect
  have hheaders' : List.Forall₂ (fun op header => MethodHeader.ofOperation ctx op = .ok header)
      (dao.operations.filter (·.isGenerated)) (wrapper.methods.map (·.header)) :=
    Replication.forall₂_header hwrapper
  refine ⟨members, impl.interface, hmembers, hname ▸ hinterface, ?_, ?_, impl.endsWithImpl, ?_⟩
  · refine ((forall₂_abstract hoperations).comp hheaders).imp ?_
    rintro member header ⟨op, hop, hheader⟩
    exact hasHeader_of_ofOperation hop hheader
  · exact List.right_unique_forall₂' (fun _ _ _ h h' => Except.ok.inj (h.symm.trans h')) hheaders'
      hheaders
  · have hsame : wrapper.interface = impl.interface :=
      Option.some.inj (hinterface'.symm.trans hinterface)
    exact hsame ▸ ⟨_, _, wrapper.endsWithImpl⟩

/-- An asynchronous query and one with a continuation, beside a method that keeps its body. -/
theorem conforms_async_continuation :
    let carried : TypeRef := .named "i64"
    let count : Signature := { params := [⟨"name", .byRef (.named "str"), []⟩], isAsync := true
                               returns := some (.named "i64") }
    let load : Signature :=
      { params := [⟨"id", .named "i64", []⟩, ⟨"done", .generic "Continuation" [carried], []⟩] }
    let both : Signature := { hasBody := true }
    let members : List Member := [⟨0, 0, "count", .method count, none⟩,
      ⟨0, 1, "both", .method both, none⟩, ⟨0, 2, "load", .method load, none⟩]
    let annotations : List (List Annotation) :=
      [[.passthrough "#[must_use]", .query "SELECT COUNT(*) FROM tag WHERE name = :name"], [],
        [.query "SELECT id FROM tag WHERE id = :id", .passthrough "#[inline]"]]
    let d : Declaration := ⟨0, .dao, ⟨"db::TagDao"⟩, [.dao], none⟩
    let source : DeclarationSource :=
      ⟨[d], fun _ => .ok members, fun member => annotations[member.index]?.getD []⟩
    let ctx : Context := ⟨{}, .jvm, .sqlite, "replikit"⟩
    ∃ dao impl wrapper, Dao.ofDeclaration source ⟨{}, []⟩ d = .ok dao ∧
      DaoImpl.ofDao ctx dao = .ok impl ∧
      Replication.ofDao { ctx with dialect := .postgres } dao = .ok wrapper ∧
      List.Forall₂ (HasHeader source "replikit")
        [⟨0, 0, "count", .method count, none⟩, ⟨0, 2, "load", .method load, none⟩]
        (wrapper.methods.map (·.header)) := by
  intro carried count load both members annotations d source ctx
  have hany : (Dao.ofDeclaration source ⟨{}, []⟩ d).toOption.any (fun dao =>
      (DaoImpl.ofDao ctx dao).toOption.isSome &&
        (Replication.ofDao { ctx with dialect := .postgres } dao).toOption.isSome) = true := by
    decide +kernel
  obtain ⟨dao, hdao, hunits⟩ := Except.exists_of_any hany
  obtain ⟨himpl, hwrapper⟩ := Bool.and_eq_true_iff.mp hunits
  obtain ⟨impl, himpl⟩ := Option.isSome_iff_exists.mp himpl
  obtain ⟨wrapper, hwrapper⟩ := Option.isSome_iff_exists.mp hwrapper
  rw [Except.toOption_eq_some] at himpl hwrapper
  obtain ⟨found, _, hfound, _, hmethods, hsame, _⟩ :=
    conforms_ofDeclaration hdao ctx .postgres himpl hwrapper
  cases hfound
  exact ⟨dao, impl, wrapper, hdao, himpl, hwrapper, hsame ▸ hmethods⟩

end Emission

end DaoGen
