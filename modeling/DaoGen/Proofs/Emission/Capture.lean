import DaoGen.Declaration.Collection
import DaoGen.Proofs.Emission.Outline
import DaoGen.Proofs.Emission.Recording
import Mathlib.Data.Set.List

/-!
# Capture of names

Nothing keeps the names of parameters apart from the local names of generated bodies. A parameter is
captured just if a local name that is in scope where it is used is the same identifier.

## Main results

* `Emission.captured_iff`: which names of parameters and continuations are captured, by emitter.
-/
namespace DaoGen.Emission

open Code

/-! ## Outlines of bodies -/

theorem writeOne_ok {ctx : Context} {statement : Sql.WriteStatement} {item : String} {e : Expr}
    (h : writeOne ctx statement item = .ok e) :
    ∃ fields, e = rowBlock ctx statement fields item := by
  obtain ⟨values, hvalues, h⟩ := Except.bind_eq_ok.mp h
  cases Except.pure_eq_ok.mp h
  have hall : ∀ v ∈ values, v ∈ Set.range fun f => Expr.borrow (.field (.var item) f) := by
    intro v hv
    obtain ⟨f, _, hf⟩ := (Except.forall₂_of_mapM hvalues).exists_left hv
    obtain ⟨name, _, hf⟩ := Except.bind_eq_ok.mp hf
    exact ⟨name, Except.pure_eq_ok.mp hf⟩
  obtain ⟨fields, rfl⟩ := (Set.range_list_map _).ge hall
  exact ⟨fields, rfl⟩

/-- The names of parameters, as identifiers. -/
def paramNames (op : Operation) : List String := op.params.filterMap (parseName ·.name)

/-- The local names that are in scope where an implementation uses the parameters of an operation:
those of a write of several entities. -/
def batchLocals (op : Operation) : List String :=
  match op.kind with
  | .write write =>
    if write.batch then (writeResult op write).toOption.elim [] WriteResult.locals else []
  | .query _ | .custom => []

theorem batchLocals_of_write {op : Operation} {write : Write} (hkind : op.kind = .write write) :
    batchLocals op =
      if write.batch then (writeResult op write).toOption.elim [] WriteResult.locals else [] := by
  rw [batchLocals, hkind]

/-- A computation is one of an operation. -/
structure Computation.IsOf (op : Operation) (c : Computation) : Prop where
  call : ∀ params call, c = .query params call →
    ∃ written sql, queryCall op written sql = .ok call
  names : ∀ x ∈ c.names, x ∈ paramNames op
  locals : c.locals = batchLocals op
  all : c.locals = [] ∨ c.names = paramNames op

theorem queryBody_ok {ctx : Context} {op : Operation} {query : Query}
    (hkind : op.kind = .query query) {body : Body} (h : queryBody ctx op query = .ok body) :
    ∃ c, Computation.IsOf op c ∧ body = c.outline ctx id := by
  obtain ⟨values, hvalues, h⟩ := Except.bind_eq_ok.mp h
  obtain ⟨call, hcall, h⟩ := Except.bind_eq_ok.mp h
  cases Except.pure_eq_ok.mp h
  have hnamed : ∀ v ∈ values, ∃ x ∈ paramNames op, Expr.borrow (.var x) = v := by
    intro v hv
    obtain ⟨placeholder, _, hvalue⟩ := (Except.forall₂_of_mapM hvalues).exists_left hv
    unfold queryValue at hvalue
    split at hvalue
    · cases hvalue
    · next param hparam =>
      obtain ⟨x, hx, hvalue⟩ := Except.bind_eq_ok.mp hvalue
      refine ⟨x, List.mem_filterMap.mpr ⟨param, List.mem_of_find?_eq_some hparam, ?_⟩,
        Except.pure_eq_ok.mp hvalue⟩
      exact identifier_eq_ok.mp hx
  have hall : ∀ v ∈ values, v ∈ Set.range fun x => Expr.borrow (.var x) := fun v hv =>
    (hnamed v hv).imp fun _ h => h.2
  obtain ⟨params, rfl⟩ := (Set.range_list_map _).ge hall
  refine ⟨.query params call, ⟨?_, fun x hx => ?_, by rw [batchLocals, hkind]; rfl, .inl rfl⟩, rfl⟩
  · rintro _ _ ⟨⟩
    exact ⟨_, _, hcall⟩
  · obtain ⟨y, hy, heq⟩ := hnamed _ (List.mem_map_of_mem hx)
    obtain rfl : y = x := by simpa using heq
    exact hy

section Accepted

variable {source : DeclarationSource} {scope : Scope} {d : Declaration} {dao : Dao}
  (hdao : Dao.ofDeclaration source scope d = .ok dao) {op : Operation} (hop : op ∈ dao.operations)
  {ctx : Context}

include hdao hop

/-- The parameter of an accepted write is the only one. -/
theorem paramNames_of_write {write : Write} (hkind : op.kind = .write write) {param : String}
    (hparam : parseName write.param = some param) : paramNames op = [param] := by
  obtain ⟨_, p, hparams, hname⟩ := Dao.write_of_ofDeclaration hdao hop hkind
  simp [paramNames, hparams, hname, hparam]

theorem writeBody_ok {write : Write} (hkind : op.kind = .write write) {body : Body}
    (h : writeBody ctx op write = .ok body) :
    ∃ c, Computation.IsOf op c ∧ body = c.outline ctx id := by
  unfold writeBody at h
  split at h
  · cases h
  · split at h
    · cases h
    · next statement _ =>
      obtain ⟨result, hresult, h⟩ := Except.bind_eq_ok.mp h
      obtain ⟨param, hparam, h⟩ := Except.bind_eq_ok.mp h
      have hnames := paramNames_of_write hdao hop hkind (identifier_eq_ok.mp hparam)
      have hmem : ∀ x ∈ [param], x ∈ paramNames op := fun x hx => hnames ▸ hx
      split at h
      · next hbatch =>
        obtain ⟨one, hone, h⟩ := Except.bind_eq_ok.mp h
        obtain ⟨fields, rfl⟩ := writeOne_ok hone
        cases Except.pure_eq_ok.mp h
        refine ⟨.each param statement fields result, ⟨nofun, hmem, ?_, .inr hnames.symm⟩, rfl⟩
        rw [batchLocals_of_write hkind, if_pos hbatch, hresult]
        rfl
      · next hsingle =>
        obtain ⟨one, hone, h⟩ := Except.bind_eq_ok.mp h
        obtain ⟨fields, rfl⟩ := writeOne_ok hone
        cases Except.pure_eq_ok.mp h
        refine ⟨.one param statement fields result, ⟨nofun, hmem, ?_, .inl rfl⟩, rfl⟩
        rw [batchLocals_of_write hkind, if_neg hsingle]
        rfl

theorem implementationMethod?_body {m : Method}
    (h : implementationMethod? ctx op = .ok (some m)) :
    MethodHeader.ofOperation ctx op = .ok m.header ∧ ∃ c conversion, Computation.IsOf op c ∧
      m.body = methodOutline ctx op m.header.continuation c conversion id := by
  have hwith {compute : Body} (hcompute : ∃ c, Computation.IsOf op c ∧ compute = c.outline ctx id)
      (hm : methodWith ctx op compute = .ok m) :
      MethodHeader.ofOperation ctx op = .ok m.header ∧ ∃ c conversion, Computation.IsOf op c ∧
        m.body = methodOutline ctx op m.header.continuation c conversion id := by
    obtain ⟨c, hc, rfl⟩ := hcompute
    obtain ⟨header, hheader, hm⟩ := Except.bind_eq_ok.mp hm
    split at hm
    · cases hm
    · next conversion _ =>
      cases Except.pure_eq_ok.mp hm
      refine ⟨hheader, c, conversion, hc, ?_⟩
      have hspelled : header.continuation.map (·.spelled id) = header.continuation :=
        by cases header.continuation <;> rfl
      rw [methodOutline, hspelled]
  unfold implementationMethod? at h
  split at h
  · cases h
  · next query hkind =>
    obtain ⟨compute, hcompute, h⟩ := Except.bind_eq_ok.mp h
    obtain ⟨m', hm, h⟩ := Except.bind_eq_ok.mp h
    cases Except.pure_eq_ok.mp h
    exact hwith (queryBody_ok hkind hcompute) hm
  · next write hkind =>
    obtain ⟨compute, hcompute, h⟩ := Except.bind_eq_ok.mp h
    obtain ⟨m', hm, h⟩ := Except.bind_eq_ok.mp h
    cases Except.pure_eq_ok.mp h
    exact hwith (writeBody_ok hdao hop hkind hcompute) hm

/-- What the recordings of an accepted operation are made from is one of its parameters. -/
theorem param_mem_paramNames {r : Recording} (h : Recording.ofOperation? ctx op = .ok (some r)) :
    ∀ x ∈ r.source.param?, x ∈ paramNames op := by
  unfold Recording.ofOperation? at h
  split at h
  · cases h
  · split at h
    · next write hkind =>
      obtain ⟨r', hr, h⟩ := Except.bind_eq_ok.mp h
      cases Except.pure_eq_ok.mp h
      unfold Recording.ofWrite at hr
      split at hr
      · cases hr
      · obtain ⟨param, hparam, hr⟩ := Except.bind_eq_ok.mp hr
        obtain ⟨attachment, _, hr⟩ := Except.bind_eq_ok.mp hr
        cases Except.pure_eq_ok.mp hr
        rw [paramNames_of_write hdao hop hkind (identifier_eq_ok.mp hparam)]
        intro x hx
        split at hx <;> simpa [RecordSource.param?, eq_comm] using hx
    · next query hkind =>
      obtain ⟨r', hr, h⟩ := Except.bind_eq_ok.mp h
      cases Except.pure_eq_ok.mp h
      obtain ⟨table, operation, _, _, rfl⟩ := Recording.ofQuery_ok hr
      nofun
    · cases h

end Accepted

/-! ## Headers -/

section Header

variable {ctx : Context} {op : Operation} {header : MethodHeader}
  (h : MethodHeader.ofOperation ctx op = .ok header)

include h

theorem names_of_header : header.params.map (·.name) = paramNames op := by
  obtain ⟨_, _, _, hparams, _⟩ := MethodHeader.ofOperation_ok h
  have hall := MethodHeader.paramsOf_ok hparams
  unfold paramNames
  clear h hparams
  generalize op.params = params at hall ⊢
  generalize header.params = bindings at hall ⊢
  induction hall with
  | nil => rfl
  | cons hname _ ih => simp [hname.1, ih]

theorem isSome_continuation : op.isContinuationStyle = header.continuation.isSome := by
  obtain ⟨_, _, _, _, hcontinuation, _⟩ := MethodHeader.ofOperation_ok h
  unfold Operation.isContinuationStyle
  cases hsuspension : op.suspension with
  | continuation param ty =>
    rw [hsuspension] at hcontinuation
    obtain ⟨_, _, _, hsome, _⟩ := MethodHeader.continuationOf_ok hcontinuation
    rw [hsome, Option.isSome_some]
  | blocking | async =>
    rw [hsuspension] at hcontinuation
    have hnone : none = header.continuation := Except.ok.inj hcontinuation
    rw [← hnone]
    rfl

theorem exists_binding {x : String} (hx : x ∈ paramNames op) :
    ∃ b ∈ header.params, b.name = x := by
  rw [← names_of_header h] at hx
  exact List.mem_map.mp hx

end Header

namespace MethodHeader

theorem isRaw_of_mem_inScope (h : MethodHeader) : ∀ x ∈ h.inScope, isRaw x = true := by
  simp [inScope]

/-- The names of the parameters refer to them where nothing else is in scope. -/
theorem refers_inScope (h : MethodHeader) :
    ∀ b ∈ h.bindings, Use.Refers ⟨rawName b.name, h.inScope⟩ := by
  intro b hb
  have hmem : rawName b.name ∈ h.inScope := List.mem_map_of_mem hb
  have hrefers : Use.Refers ⟨rawName b.name, h.inScope ++ []⟩ :=
    Use.refers_of_mem h.isRaw_of_mem_inScope ⟨_, hmem, rfl⟩
  rwa [List.append_nil] at hrefers

theorem isApart_inScope (h : MethodHeader) :
    ∀ b ∈ h.bindings, Use.IsApart ⟨rawName b.name, h.inScope⟩ := by
  intro b _ x hx hplain
  rw [h.isRaw_of_mem_inScope x hx] at hplain
  cases hplain

end MethodHeader

/-! ## Captured names -/

/-- The outline of a method of a wrapper. -/
theorem wrapper_body {ctx : Context} {op : Operation} {m : Method}
    (h : Replication.method? ctx op = .ok (some m)) :
    ∃ recording, MethodHeader.ofOperation ctx op = .ok m.header ∧
      Recording.ofOperation? ctx op = .ok recording ∧
      m.body = wrapperOutline ctx op m.header recording id := by
  rcases Replication.method?_ok h with
    ⟨_, hnone⟩ | ⟨_, recording, hsome, _, hheader, hrecording, hbody⟩
  · cases hnone
  · cases hsome
    refine ⟨recording, hheader, hrecording, hbody.trans ?_⟩
    cases recording <;> simp [wrapperOutline, MethodHeader.spelled_id, Recording.spelled_id]

/-- The operations that are recorded are those that write rows. -/
theorem isSome_recording {ctx : Context} {op : Operation} {recording : Option Recording}
    (h : Recording.ofOperation? ctx op = .ok recording) : recording.isSome = op.isMutating := by
  unfold Recording.ofOperation? at h
  split at h
  · next hnot =>
    cases h
    rw [Bool.not_eq_true'] at hnot
    rw [hnot, Option.isSome_none]
  · next hmutating =>
    have hwrites : op.isMutating = true := by simpa using hmutating
    rw [hwrites]
    split at h
    · obtain ⟨_, _, h⟩ := Except.bind_eq_ok.mp h
      cases Except.pure_eq_ok.mp h
      rfl
    · obtain ⟨_, _, h⟩ := Except.bind_eq_ok.mp h
      cases Except.pure_eq_ok.mp h
      rfl
    · next hkind => simp [Operation.isMutating, hkind] at hwrites

section Methods

variable {source : DeclarationSource} {scope : Scope} {d : Declaration} {dao : Dao}
  (hdao : Dao.ofDeclaration source scope d = .ok dao) {op : Operation} (hop : op ∈ dao.operations)
  {ctx : Context} {P : Use → Prop} (hP : Use.IsScoping P) {header : MethodHeader}
  (hheader : MethodHeader.ofOperation ctx op = .ok header)
  (hbindings : ∀ b ∈ header.bindings, P ⟨rawName b.name, header.inScope⟩)

include hP hheader hbindings

/-- The uses of names in an implementation. -/
theorem each_methodOutline {c : Computation} (hc : c.IsOf op) {conversion : Conversion} :
    (methodOutline ctx op header.continuation c conversion).Each P header.inScope ↔
      (IsComputed ctx op → (∀ b ∈ header.params, columnName b.name ∉ batchLocals op) ∧
        ∀ b ∈ header.continuation, columnName b.name ≠ "value") := by
  have hparams : ∀ x ∈ paramNames op, P ⟨rawName x, header.inScope⟩ := by
    intro x hx
    obtain ⟨b, hb, rfl⟩ := exists_binding hheader hx
    exact hbindings b (List.mem_append_left _ hb)
  have hcompute : (c.outline ctx rawName).block.Each P header.inScope ↔
      ∀ b ∈ header.params, columnName b.name ∉ batchLocals op := by
    have hcall : ∀ params call, c = .query params call →
        ∃ op written sql, queryCall op written sql = .ok call := fun params call heq =>
      ⟨op, hc.call params call heq⟩
    refine (Computation.each_outline hcall fun x hx => hparams x (hc.names x hx)).trans ?_
    have hone : ∀ x ∈ c.names, P ⟨rawName x, c.locals ++ header.inScope⟩ ↔
        columnName x ∉ c.locals := fun x hx => by
      rw [hP.append c.not_isRaw_of_mem_locals, columnName_rawName,
        and_iff_left (hparams x (hc.names x hx))]
    rw [forall₂_congr hone, ← hc.locals]
    rcases hc.all with hnone | hall
    · simp [hnone]
    · rw [hall, ← names_of_header hheader, List.forall_mem_map]
  refine (each_deliver (by simp +decide)).trans (forall_congr' fun hcomputed => ?_)
  rw [hcompute, isSome_continuation hheader]
  refine and_congr_right fun _ => ?_
  have hvalue : isRaw "value" = false := by decide
  cases hcont : header.continuation with
  | none => simp
  | some cont =>
    have hown := hbindings cont (by simp [MethodHeader.bindings, hcont])
    simp [hP.plain hvalue, hown]

/-- The uses of names in a wrapper. -/
theorem each_wrapperOutline {r : Option Recording}
    (hparam : ∀ r' ∈ r, ∀ x ∈ r'.source.param?, x ∈ paramNames op) :
    (wrapperOutline ctx op header r).Each P header.inScope ↔
      (r.isSome = true → ∀ b ∈ header.bindings, columnName b.name ∉ recordingLocals op) := by
  cases r with
  | none =>
    refine iff_of_true ?_ nofun
    simpa [wrapperOutline, Outline.Each, Body.block, Expr.each_block, each_innerCall]
      using hbindings
  | some r =>
    have hsource : ∀ x ∈ r.source.param?, P ⟨rawName x, header.inScope⟩ := by
      intro x hx
      obtain ⟨b, hb, rfl⟩ := exists_binding hheader (hparam r rfl x hx)
      exact hbindings b (List.mem_append_left _ hb)
    refine (each_recordingBody hP (isSome_continuation hheader) hbindings hsource).trans ?_
    simp

end Methods

section Endpoints

variable {ctx : Context} {interface : List Token} {dao : QualifiedName} {op : Operation}
  {e : Endpoint} (h : Endpoint.ofOperation ctx interface dao op = .ok e)

include h

theorem names_of_request :
    (RequestStruct.sentParams op).map identifierOf = e.request.fields.map (·.name) := by
  obtain ⟨_, hrequest, _⟩ := Endpoint.ofOperation_ok h
  refine map_identifierOf (List.forall₂_map_right_iff.mpr ?_)
  exact (RequestStruct.fields_ofOperation hrequest).imp fun _ _ hfield => hfield.1

theorem handler_body : ∃ method conversion,
    e.handler.body = handlerOutline ctx op e.request.name method conversion id := by
  obtain ⟨_, _, hhandler⟩ := Endpoint.ofOperation_ok h
  obtain ⟨method, fields, args, conversion, _, hfields, hargs, _, _, hbody⟩ :=
    Handler.ofOperation_ok hhandler
  have hall : op.params.map (argumentAs ctx id) = args := by
    rw [← List.forall₂_eq_eq_eq, List.forall₂_map_left_iff]
    exact hargs.imp fun _ _ => argumentAs_of_argumentOf
  refine ⟨method, conversion, ?_⟩
  rw [hbody, ← map_identifierOf hfields, ← hall]
  rfl

/-- The uses of names in a handler. -/
theorem each_handler {P : Use → Prop} (hP : Use.IsScoping P) {method : String}
    {conversion : Conversion} :
    (handlerOutline ctx op e.request.name method conversion).Each P handlerNames ↔
      ∀ f ∈ e.request.fields, columnName f.name ∉ handlerLocals op ∧
        P ⟨rawName f.name, e.request.fields.map (fun f => rawName f.name) ++ handlerNames⟩ := by
  have hplain : ∀ x ∈ handlerLocals op, isRaw x = false := by
    unfold handlerLocals
    split <;> simp +decide
  have hraw : (RequestStruct.sentParams op).map (fun p => rawName (identifierOf p)) =
      e.request.fields.map fun f => rawName f.name := by
    have hmap := congrArg (List.map rawName) (names_of_request h)
    simpa [Function.comp_def] using hmap
  have hfields {Q : String → Prop} : (∀ p ∈ RequestStruct.sentParams op, Q (identifierOf p)) ↔
      ∀ f ∈ e.request.fields, Q f.name := by
    rw [← List.forall_mem_map, names_of_request h, List.forall_mem_map]
  rw [each_handlerOutline, hraw]
  refine Iff.trans (forall₂_congr fun p _ => ?_) (hfields (Q := fun x =>
    columnName x ∉ handlerLocals op ∧
      P ⟨rawName x, e.request.fields.map (fun f => rawName f.name) ++ handlerNames⟩))
  rw [List.append_assoc, hP.append hplain, columnName_rawName]

theorem refers_handlerOutline {method : String} {conversion : Conversion} :
    (handlerOutline ctx op e.request.name method conversion).Refers handlerNames ↔
      ∀ f ∈ e.request.fields, columnName f.name ∉ handlerLocals op := by
  refine (each_handler h Use.isScoping_refers).trans (forall₂_congr fun f hf => ?_)
  have hmem : rawName f.name ∈ e.request.fields.map fun f => rawName f.name :=
    List.mem_map_of_mem hf
  exact and_iff_left (Use.refers_of_mem (by simp) ⟨_, hmem, rfl⟩)

theorem isApart_handlerOutline {method : String} {conversion : Conversion} :
    (handlerOutline ctx op e.request.name method conversion).IsApart handlerNames ↔
      ∀ f ∈ e.request.fields, columnName f.name ∉ handlerLocals op ++ handlerNames := by
  refine (each_handler h Use.isScoping_isApart).trans (forall₂_congr fun f hf => ?_)
  rw [Use.isApart_append (by simp), List.mem_append, not_or]
  refine and_congr_right fun _ => ?_
  have hplain : ∀ x ∈ handlerNames, isRaw x = false := by decide
  have hnil : Use.IsApart ⟨rawName f.name, []⟩ := nofun
  have hnames : Use.IsApart ⟨rawName f.name, handlerNames ++ []⟩ ↔ _ :=
    Use.isScoping_isApart.append hplain
  rw [List.append_nil, columnName_rawName, and_iff_left hnil] at hnames
  exact hnames

end Endpoints

/-- A body has an outline. The names of the user refer to names of the user just if the first
condition holds, and no local name in scope is the same identifier just if the second one does. -/
structure Outline.Describes (o : Outline) (scope : List String) (body : Body)
    (refers apart : Prop) : Prop where
  body : body = o id
  refers : o.Refers scope ↔ refers
  apart : o.IsApart scope ↔ apart

/-- The names of parameters and continuations in the bodies for an accepted operation refer to these
just if they are none of the local names that are in scope where they are used. -/
theorem captured_iff {source : DeclarationSource} {scope : Scope} {d : Declaration} {dao : Dao}
    (hdao : Dao.ofDeclaration source scope d = .ok dao) {op : Operation}
    (hop : op ∈ dao.operations) (ctx : Context) :
    (∀ m, implementationMethod? ctx op = .ok (some m) →
      let free := IsComputed ctx op →
        (∀ b ∈ m.header.params, columnName b.name ∉ batchLocals op) ∧
          ∀ b ∈ m.header.continuation, columnName b.name ≠ "value"
      ∃ c conversion, Computation.IsOf op c ∧
        (methodOutline ctx op m.header.continuation c conversion).Describes m.header.inScope m.body
          free free) ∧
    (∀ m, Replication.method? ctx op = .ok (some m) →
      let free := op.isMutating = true →
        ∀ b ∈ m.header.bindings, columnName b.name ∉ recordingLocals op
      ∃ recording, Recording.ofOperation? ctx op = .ok recording ∧
        (wrapperOutline ctx op m.header recording).Describes m.header.inScope m.body free free) ∧
    ∀ interface e, Endpoint.ofOperation ctx interface dao.name op = .ok e →
      ∃ method conversion,
        (handlerOutline ctx op e.request.name method conversion).Describes handlerNames
          e.handler.body
          (∀ f ∈ e.request.fields, columnName f.name ∉ handlerLocals op)
          (∀ f ∈ e.request.fields, columnName f.name ∉ handlerLocals op ++ handlerNames) := by
  refine ⟨fun m h => ?_, fun m h => ?_, fun interface e h => ?_⟩
  · obtain ⟨hheader, c, conversion, hc, hbody⟩ := implementationMethod?_body hdao hop h
    exact ⟨c, conversion, hc, hbody,
      each_methodOutline Use.isScoping_refers hheader m.header.refers_inScope hc,
      each_methodOutline Use.isScoping_isApart hheader m.header.isApart_inScope hc⟩
  · obtain ⟨recording, hheader, hrecording, hbody⟩ := wrapper_body h
    have hparam : ∀ r ∈ recording, ∀ x ∈ r.source.param?, x ∈ paramNames op := by
      rintro r rfl
      exact param_mem_paramNames hdao hop hrecording
    dsimp only
    rw [← isSome_recording hrecording]
    exact ⟨recording, hrecording, hbody,
      each_wrapperOutline Use.isScoping_refers hheader m.header.refers_inScope hparam,
      each_wrapperOutline Use.isScoping_isApart hheader m.header.isApart_inScope hparam⟩
  · obtain ⟨method, conversion, hbody⟩ := handler_body h
    exact ⟨method, conversion, hbody, refers_handlerOutline h, isApart_handlerOutline h⟩

/-! ## A captured parameter -/

/-- The code of a deletion by the value of a parameter. -/
def discardCode (param : String) : String :=
  "#[dao] pub trait TagDao \x7b #[query(\"DELETE FROM tag WHERE id = :" ++ param ++
    "\")] async fn discard(&self, " ++ param ++ ": i64); \x7d"

/-- The deletion by a parameter is accepted and has a method in the wrapper of its DAO. -/
structure Discards (param : String) (c : Collection) (dao : Dao) (op : Operation) (m : Method) :
    Prop where
  declares : Declares (discardCode param) c dao op
  params : op.params.map (·.name) = [param]
  suspension : op.suspension = .async
  mutating : op.isMutating = true
  method : Replication.method? .empty op = .ok (some m)

/-- Whether the deletion by a parameter has a method in a wrapper. -/
def isWrapped (param : String) : Bool :=
  declaresAny (discardCode param) fun _ op =>
    op.params.map (·.name) == [param] && op.suspension == .async && op.isMutating &&
      (Replication.method? .empty op).toOption.any Option.isSome

theorem exists_of_isWrapped {param : String} (h : isWrapped param = true) :
    ∃ c dao op m, Discards param c dao op m := by
  obtain ⟨c, dao, op, hdeclares, hall⟩ := exists_of_declaresAny h
  simp only [Bool.and_eq_true, beq_iff_eq] at hall
  obtain ⟨⟨⟨hparams, hsuspension⟩, hmutating⟩, hmethod⟩ := hall
  obtain ⟨m?, hmethod, hsome⟩ := Except.exists_of_any hmethod
  obtain ⟨m, rfl⟩ := Option.isSome_iff_exists.mp hsome
  exact ⟨c, dao, op, m, hdeclares, hparams, hsuspension, hmutating, hmethod⟩

namespace Discards

variable {param : String} {c : Collection} {dao : Dao} {op : Operation} {m : Method}
  (h : Discards param c dao op m)

include h

/-- The parameter is the only one of the method. -/
theorem names (hparam : parseName param = some param) :
    m.header.bindings.map (·.name) = [param] := by
  obtain ⟨_, hheader, _⟩ := wrapper_body h.method
  have hnone : m.header.continuation = none := by
    rw [← Option.not_isSome_iff_eq_none, ← isSome_continuation hheader,
      Operation.isContinuationStyle, h.suspension]
    exact Bool.false_ne_true
  have hnames : paramNames op = [param] := by
    obtain ⟨p, hp, hname⟩ := List.map_eq_singleton_iff.mp h.params
    simp [paramNames, hp, hname, hparam]
  rw [MethodHeader.bindings, hnone, Option.toList_none, List.append_nil, names_of_header hheader,
    hnames]

theorem recordingLocals_eq : recordingLocals op = ["records"] := by
  simp [recordingLocals, Operation.isContinuationStyle, h.suspension]

end Discards

/-- In the wrapper of a deletion by `id`, the parameter is passed on. -/
theorem captured_iff_id : ∃ c dao op m, Discards "id" c dao op m ∧ ∃ recording,
    m.body = wrapperOutline .empty op m.header recording id ∧
      (wrapperOutline .empty op m.header recording).Refers m.header.inScope ∧
      (wrapperOutline .empty op m.header recording).IsApart m.header.inScope := by
  have hwrapped : isWrapped "id" = true := by decide +kernel
  obtain ⟨c, dao, op, m, h⟩ := exists_of_isWrapped hwrapped
  obtain ⟨d, _, hdao⟩ := h.declares.accepted
  obtain ⟨_, hwrapper, _⟩ := captured_iff hdao h.declares.mem .empty
  obtain ⟨recording, _, hbody, hrefers, hapart⟩ := hwrapper m h.method
  have hfree : ∀ b ∈ m.header.bindings, columnName b.name ∉ recordingLocals op := by
    intro b hb
    have hmem : b.name ∈ m.header.bindings.map (·.name) := List.mem_map_of_mem hb
    rw [h.names (by decide +kernel), List.mem_singleton] at hmem
    rw [hmem, h.recordingLocals_eq]
    decide
  exact ⟨c, dao, op, m, h, recording, hbody, hrefers.mpr fun _ => hfree,
    hapart.mpr fun _ => hfree⟩

/-- In the wrapper of a deletion by `records`, the records of the wrapper are passed on in place of
the parameter. -/
theorem exists_captured : ∃ c dao op m, Discards "records" c dao op m ∧ ∃ recording,
    m.body = wrapperOutline .empty op m.header recording id ∧
      ¬ (wrapperOutline .empty op m.header recording).Refers m.header.inScope := by
  have hwrapped : isWrapped "records" = true := by decide +kernel
  obtain ⟨c, dao, op, m, h⟩ := exists_of_isWrapped hwrapped
  obtain ⟨d, _, hdao⟩ := h.declares.accepted
  obtain ⟨recording, hheader, hrecording, hbody⟩ := wrapper_body h.method
  refine ⟨c, dao, op, m, h, recording, hbody, fun hrefers => ?_⟩
  have hparam : ∀ r ∈ recording, ∀ x ∈ r.source.param?, x ∈ paramNames op := by
    rintro r rfl
    exact param_mem_paramNames hdao h.declares.mem hrecording
  have hfree := (each_wrapperOutline Use.isScoping_refers hheader m.header.refers_inScope
    hparam).mp hrefers (by rw [isSome_recording hrecording, h.mutating])
  obtain ⟨b, hb, hname⟩ := List.map_eq_singleton_iff.mp (h.names (by decide +kernel))
  have hnot := hfree b (by simp [hb])
  rw [hname, h.recordingLocals_eq] at hnot
  exact hnot (by decide)

end DaoGen.Emission
