import DaoGen.Emission.Endpoint
import DaoGen.Proofs.Code.Ending
import DaoGen.Proofs.Emission.Methods
import DaoGen.Proofs.Sql.Binding

/-!
# Code for the two dialects

If the queries of a DAO are not replaced on any dialect, the code for it implements the same
operations on both: generating it fails on both or on none, for the same reason, and where a query
names a parameter, the same parameter of the operation is supplied. The structs of implementations
are named for their dialects, so a name that cannot be used is reported as the one of the dialect.

## Main definitions

* `SameUse`: a use of a parameter in a query, as it is bound on both dialects.
* `DaoImpl.Counterpart`, `Router.Counterpart`: what is generated for one DAO on both dialects.

## Main results

* `agree_mapM_eraseDups`: items are as good as their first occurrences.
* `dialects_agree`: the implementations and routers of a DAO on both dialects.
-/
namespace DaoGen

/-! ## First occurrences -/

section FirstOccurrences

variable {ε α β : Type} [BEq α] [LawfulBEq α]

omit [BEq α] [LawfulBEq α] in
/-- Items for which nothing is found can be left out. -/
theorem findSome?_filter_of_none {f : α → Option β} {p : α → Bool} {l : List α}
    (h : ∀ a ∈ l, p a = false → f a = none) : (l.filter p).findSome? f = l.findSome? f := by
  induction l with
  | nil => rfl
  | cons a rest ih =>
    obtain ⟨ha, hrest⟩ := List.forall_mem_cons.mp h
    cases hp : p a with
    | true => rw [List.filter_cons_of_pos hp, List.findSome?_cons, List.findSome?_cons, ih hrest]
    | false =>
      rw [List.filter_cons_of_neg (by simp [hp]), List.findSome?_cons, ha hp, ih hrest]

/-- What is found for an item is found at its first occurrence. -/
theorem findSome?_eraseDups (f : α → Option β) (l : List α) :
    l.eraseDups.findSome? f = l.findSome? f := by
  match l with
  | [] => rfl
  | a :: rest =>
    rw [List.eraseDups_cons, List.findSome?_cons, List.findSome?_cons]
    cases hf : f a with
    | some b => rfl
    | none =>
      refine (findSome?_eraseDups f _).trans (findSome?_filter_of_none fun b _ hb => ?_)
      obtain rfl : b = a := by simpa using hb
      exact hf
termination_by l.length
decreasing_by exact Nat.lt_succ_of_le (List.length_filter_le _ _)

/-- Nothing is wrong with the items of a list that is not wrong with the first occurrences, and the
first thing that is wrong is the same. -/
theorem agree_mapM_eraseDups (f : α → Except ε β) (l : List α) :
    Except.Agree (fun bs cs => List.Forall₂ (fun a b => f a = .ok b) l bs ∧
        List.Forall₂ (fun a c => f a = .ok c) l.eraseDups cs)
      (l.mapM f) (l.eraseDups.mapM f) := by
  refine .of_error? ?_ fun bs cs hbs hcs =>
    ⟨Except.forall₂_of_mapM hbs, Except.forall₂_of_mapM hcs⟩
  rw [Except.error?_mapM, Except.error?_mapM, findSome?_eraseDups]

end FirstOccurrences

namespace Emission

open Code

/-- The same context on a dialect. -/
def Context.on (ctx : Context) (dialect : Dialect) : Context := { ctx with dialect }

variable (ctx : Context) (op : Operation)

/-! ## Uses of parameters -/

/-- A part of a query that stays on both dialects, or a use of a parameter for which the same
parameter of the operation is supplied: `values` are supplied for the unnumbered placeholders and
`values'` for the numbered ones. -/
inductive SameUse (values values' : List Expr) : Sql.Piece → Sql.Slot → Sql.Slot → Prop where
  | char (c : Char) : SameUse values values' (.char c) (.char c) (.char c)
  | param {name : List Char} {param : LogicalParam} {text : String} {place place' : Nat}
    (hparam : op.params.find? (columnName ·.name == String.ofList name) = some param)
    (htext : identifier param.name = .ok text)
    (hvalue : values[place]? = some (.borrow (.var text)))
    (hvalue' : values'[place']? = some (.borrow (.var text))) :
    SameUse values values' (.param name) (.placeholder place) (.placeholder place')

/-- Values for a query on both dialects. The slots of the query are the bound statements, and those
without numbers take the values in order. -/
structure SameUses (sql : String) (values values' : List Expr) : Prop where
  uses : List.Forall₃ (SameUse op values values') (Sql.piecesOf sql) (Sql.slotsOf .sqlite sql)
    (Sql.slotsOf .postgres sql)
  text (dialect : Dialect) : (Sql.slotsOf dialect sql).flatMap (Sql.Slot.text dialect) =
    (Sql.bind dialect sql).sql.toList
  places : Sql.placesOf (Sql.slotsOf .sqlite sql) = List.range values.length

theorem queryValue_ok {name : String} {value : Expr} (h : queryValue op name = .ok value) :
    ∃ param text, op.params.find? (columnName ·.name == name) = some param ∧
      identifier param.name = .ok text ∧ value = .borrow (.var text) := by
  unfold queryValue at h
  split at h
  · cases h
  · next param hparam =>
    obtain ⟨text, htext, h⟩ := Except.bind_eq_ok.mp h
    exact ⟨param, text, hparam, htext, (Except.pure_eq_ok.mp h).symm⟩

/-- At every use the value at the place of the parameter is the one of its name. The induction is on
the parts of the query; the parameters supplied so far differ between the dialects. -/
theorem sameUse_slotsAfter {all all' : List (List Char)} {values values' : List Expr}
    (hvalues : List.Forall₂ (fun name v => queryValue op (String.ofList name) = .ok v) all values)
    (hvalues' : List.Forall₂ (fun name v => queryValue op (String.ofList name) = .ok v) all'
      values')
    {supplied supplied' : List (List Char)} {pieces : List Sql.Piece}
    (h : Sql.suppliedAfter .sqlite supplied (Sql.namesOf pieces) <+: all)
    (h' : Sql.suppliedAfter .postgres supplied' (Sql.namesOf pieces) <+: all') :
    List.Forall₃ (SameUse op values values') pieces (Sql.slotsAfter .sqlite supplied pieces)
      (Sql.slotsAfter .postgres supplied' pieces) := by
  induction pieces generalizing supplied supplied' with
  | nil => exact .nil
  | cons piece rest ih =>
    cases piece with
    | char c => exact .cons (.char c) (ih h h')
    | param name =>
      rw [Sql.namesOf_param, Sql.suppliedAfter_cons] at h h'
      have hplace := Sql.getElem?_of_supply ((Sql.prefix_suppliedAfter .sqlite _ _).trans h)
      have hplace' := Sql.getElem?_of_supply ((Sql.prefix_suppliedAfter .postgres _ _).trans h')
      obtain ⟨value, hvalue, hok⟩ := hvalues.exists_getElem? hplace
      obtain ⟨value', hvalue', hok'⟩ := hvalues'.exists_getElem? hplace'
      obtain rfl : value = value' := Except.ok.inj (hok.symm.trans hok')
      obtain ⟨param, text, hparam, htext, rfl⟩ := queryValue_ok op hok
      exact .cons (.param hparam htext hvalue hvalue') (ih h h')

/-- Values are found for the parameters of a query on both dialects, or the same is wrong with
them. -/
theorem agree_queryValues (sql : String) : Except.Agree (SameUses op sql)
    ((Sql.bind .sqlite sql).params.mapM (queryValue op))
    ((Sql.bind .postgres sql).params.mapM (queryValue op)) := by
  obtain ⟨hlossless, hplaces, _, _, hparams⟩ := Sql.bind_lossless sql
  have hsupplied (dialect : Dialect) : (Sql.bind dialect sql).params =
      (Sql.suppliedNames dialect (Sql.piecesOf sql)).map String.ofList := rfl
  rw [hparams]
  refine (agree_mapM_eraseDups (queryValue op) _).imp fun values values' ⟨hvalues, hvalues'⟩ => ?_
  rw [← hparams] at hvalues'
  rw [hsupplied, List.forall₂_map_left_iff] at hvalues hvalues'
  refine ⟨?_, fun dialect => (hlossless dialect).text, ?_⟩
  · exact sameUse_slotsAfter op hvalues hvalues' (Sql.prefix_suppliedNames .sqlite _)
      (Sql.prefix_suppliedNames .postgres _)
  · rw [hplaces, hsupplied, List.length_map, hvalues.length_eq]

/-! ## Bodies -/

/-- A statement that binds the values to supply as an array, whose type has their number. -/
def BindsArray (values : List Expr) (stmt : Stmt) : Prop :=
  ∃ item : List Token, stmt =
    .bind (.name "params") (some (bracket (item ++ Code.op ";" ++ numberToken values.length)))
      (.array values)

theorem bindsArray_bindParams (values : List Expr) : BindsArray values (bindParams ctx values) :=
  ⟨_, rfl⟩

/-- What becomes of the answer of the driver. -/
inductive AnswerUse where
  | discarded
  | result
  | converted (ty : List Token)

/-- How a query calls the driver, but for the values and the statement. -/
structure QueryForm where
  name : String
  types : List Token
  use : AnswerUse

/-- The body of a query of a form. -/
def QueryForm.body (form : QueryForm) (params : Stmt) (sql : String) : Body :=
  let call := driverCall form.name form.types sql
  match form.use with
  | .discarded => { stmts := [params, .run call] }
  | .result => { stmts := [params], result := some call }
  | .converted ty => { stmts := [params], result := some (.cast call ty) }

/-- Blocks that write one entity, called `item`, on both dialects: the fields are the same and the
values of all of them are supplied in order. -/
inductive SameWriting (item : String) (statement statement' : Sql.WriteStatement) :
    Expr → Expr → Prop where
  | intro {name : String} {values : List Expr} {params : Stmt}
    (hfields : statement'.fields = statement.fields)
    (hvalues : List.Forall₂ (fun field value => ∃ text, identifier field.name = .ok text ∧
      value = .borrow (.field (.var item) text)) statement.fields values)
    (hparams : BindsArray values params) :
    SameWriting item statement statement'
      (.block false [params] (some (driverCall name [] statement.sql)))
      (.block false [params] (some (driverCall name [] statement'.sql)))

/-- The body of a write, where `one` writes an entity. -/
def writingBody (write : Write) (param : String) (result : WriteResult) (one : Expr) : Body :=
  if write.batch then batchBody param one result else singleBody one result

/-- The bodies of an operation on both dialects. Those of a query differ in the statement and in how
often values are supplied, those of a write in the statement. -/
inductive SameCompute : Body → Body → Prop where
  | query {query : Query} {form : QueryForm} {values values' : List Expr} {params params' : Stmt}
    (hkind : op.kind = .query query) (huses : SameUses op query.sql values values')
    (hparams : BindsArray values params) (hparams' : BindsArray values' params') :
    SameCompute (form.body params (Sql.bind .sqlite query.sql).sql)
      (form.body params' (Sql.bind .postgres query.sql).sql)
  | write {write : Write} {entity : Entity} {statement statement' : Sql.WriteStatement}
    {param item : String} {result : WriteResult} {one one' : Expr} (hkind : op.kind = .write write)
    (hstatement : Sql.WriteStatement.ofEntity .sqlite write.op entity = .ok statement)
    (hstatement' : Sql.WriteStatement.ofEntity .postgres write.op entity = .ok statement')
    (hone : SameWriting item statement statement' one one') :
    SameCompute (writingBody write param result one) (writingBody write param result one')

/-- How the driver is called does not depend on the bound statement. -/
theorem agree_queryCall (written sql sql' : String) :
    Except.Agree (fun call call' => ∃ form : QueryForm, ∀ params,
        form.body params sql = { stmts := params :: call.1, result := call.2 } ∧
        form.body params sql' = { stmts := params :: call'.1, result := call'.2 })
      (queryCall op written sql) (queryCall op written sql') := by
  unfold queryCall
  dsimp only
  split_ifs
  · exact .ok ⟨⟨"execute", [], .discarded⟩, fun _ => ⟨rfl, rfl⟩⟩
  · exact .bind_left _ fun ty _ => .pure ⟨⟨"execute", [], .converted ty⟩, fun _ => ⟨rfl, rfl⟩⟩
  · exact .error _
  · exact .bind_left _ fun ty _ =>
      .pure ⟨⟨"query_optional", Expr.turbofish ty, .result⟩, fun _ => ⟨rfl, rfl⟩⟩
  · cases op.returnType.element? with
    | some element =>
      exact .bind_left _ fun ty _ =>
        .pure ⟨⟨"query_list", Expr.turbofish ty, .result⟩, fun _ => ⟨rfl, rfl⟩⟩
    | none =>
      exact .bind_left _ fun ty _ =>
        .pure ⟨⟨"query_one", Expr.turbofish ty, .result⟩, fun _ => ⟨rfl, rfl⟩⟩

theorem agree_queryBody {query : Query} (hkind : op.kind = .query query)
    (hplain : query.overrides = []) : Except.Agree (SameCompute op)
      (queryBody (ctx.on .sqlite) op query) (queryBody (ctx.on .postgres) op query) := by
  have hwritten (dialect : Dialect) : query.sqlFor dialect = query.sql := by
    rw [Query.sqlFor, hplain]
    rfl
  unfold queryBody
  simp only [hwritten]
  refine (agree_queryValues op query.sql).bind fun values values' huses => ?_
  refine (agree_queryCall op query.sql _ _).bind fun call call' ⟨form, hform⟩ => ?_
  refine .pure ?_
  rw [← (hform (bindParams (ctx.on .sqlite) values)).1,
    ← (hform (bindParams (ctx.on .postgres) values')).2]
  exact .query hkind huses (bindsArray_bindParams _ values) (bindsArray_bindParams _ values')

/-- A write has the same fields on both dialects, or there is no statement for it on either. -/
theorem agree_ofEntity (write : WriteOp) (entity : Entity) :
    Except.Agree (fun statement statement' => statement'.fields = statement.fields ∧
        statement'.insert = statement.insert)
      (Sql.WriteStatement.ofEntity .sqlite write entity)
      (Sql.WriteStatement.ofEntity .postgres write entity) := by
  unfold Sql.WriteStatement.ofEntity
  cases entity.primaryKey? with
  | none => exact .error _
  | some key =>
    cases write with
    | insert | replace | delete => exact .ok ⟨rfl, rfl⟩
    | update =>
      dsimp only
      split_ifs
      · exact .error _
      · exact .ok ⟨rfl, rfl⟩

theorem agree_writeOne {statement statement' : Sql.WriteStatement} (item : String)
    (hfields : statement'.fields = statement.fields)
    (hinsert : statement'.insert = statement.insert) :
    Except.Agree (SameWriting item statement statement')
      (writeOne (ctx.on .sqlite) statement item) (writeOne (ctx.on .postgres) statement' item) := by
  unfold writeOne
  rw [hfields, hinsert]
  refine .bind_left _ fun values hvalues => .pure ?_
  refine .intro hfields ?_ (bindsArray_bindParams ctx values)
  refine (Except.forall₂_of_mapM hvalues).imp fun field value hvalue => ?_
  obtain ⟨text, htext, hvalue⟩ := Except.bind_eq_ok.mp hvalue
  exact ⟨text, htext, (Except.pure_eq_ok.mp hvalue).symm⟩

theorem agree_writeBody {write : Write} (hkind : op.kind = .write write) :
    Except.Agree (SameCompute op)
      (writeBody (ctx.on .sqlite) op write) (writeBody (ctx.on .postgres) op write) := by
  have hmodel (dialect : Dialect) : (ctx.on dialect).model = ctx.model := rfl
  unfold writeBody
  rw [hmodel, hmodel]
  cases ctx.model.entity? write.entity with
  | none => exact .error _
  | some entity =>
    have hstatements := agree_ofEntity write.op entity
    dsimp only [Context.on]
    generalize hstatement : Sql.WriteStatement.ofEntity .sqlite write.op entity = found
      at hstatements
    generalize hstatement' : Sql.WriteStatement.ofEntity .postgres write.op entity = found'
      at hstatements
    cases hstatements with
    | error fault => exact .error _
    | ok h =>
      refine .bind_left _ fun result _ => .bind_left _ fun param _ => ?_
      have hbody {item : String} {one one' : Expr} (hone : SameWriting item _ _ one one') :
          SameCompute op (writingBody write param result one)
            (writingBody write param result one') :=
        .write hkind hstatement hstatement' hone
      unfold writingBody at hbody
      split_ifs at hbody ⊢
      · exact (agree_writeOne ctx "item" h.1 h.2).bind fun _ _ hone => .pure (hbody hone)
      · exact (agree_writeOne ctx param h.1 h.2).bind fun _ _ hone => .pure (hbody hone)

/-! ## Implementations -/

/-- The methods of an operation on both dialects: they have the same header and deliver in the same
way what is computed. -/
structure Method.Counterpart (m m' : Method) : Prop where
  header : m'.header = m.header
  body : ∃ compute compute' value, SameCompute op compute compute' ∧
    m.body = deliver ctx op m.header.continuation compute value ∧
    m'.body = deliver ctx op m.header.continuation compute' value

theorem agree_methodWith {compute compute' : Body} (h : SameCompute op compute compute') :
    Except.Agree (Method.Counterpart ctx op)
      (methodWith (ctx.on .sqlite) op compute) (methodWith (ctx.on .postgres) op compute') := by
  unfold methodWith
  -- headers are made without a look at the dialect
  refine Except.Agree.bind_left (MethodHeader.ofOperation ctx op) fun header _ => ?_
  cases Conversion.ofType .toDeclared op.declaredResult with
  | error ty => exact .error _
  | ok conversion => exact .pure ⟨rfl, compute, compute', _, h, rfl, rfl⟩

/-- What comes of an operation on both dialects: a method just if it is generated. -/
inductive MethodCounterpart? : Option Method → Option Method → Prop where
  | custom (hcustom : op.isGenerated = false) : MethodCounterpart? none none
  | generated {m m' : Method} (hgenerated : op.isGenerated = true) (h : m.Counterpart ctx op m') :
    MethodCounterpart? (some m) (some m')

variable {op} in
theorem agree_implementationMethod?
    (hplain : ∀ query, op.kind = .query query → query.overrides = []) :
    Except.Agree (MethodCounterpart? ctx op)
      (implementationMethod? (ctx.on .sqlite) op)
      (implementationMethod? (ctx.on .postgres) op) := by
  have hmethod {compute compute' : Except EmitCause Body} (hgenerated : op.isGenerated = true)
      (h : Except.Agree (SameCompute op) compute compute') :
      Except.Agree (MethodCounterpart? ctx op)
        (do return some (← methodWith (ctx.on .sqlite) op (← compute)))
        (do return some (← methodWith (ctx.on .postgres) op (← compute'))) :=
    h.bind fun _ _ hcompute => (agree_methodWith ctx op hcompute).bind fun _ _ hm =>
      .pure (.generated hgenerated hm)
  unfold implementationMethod?
  cases hkind : op.kind with
  | custom => exact .ok (.custom (by rw [Operation.isGenerated, hkind]))
  | query query =>
    exact hmethod (by rw [Operation.isGenerated, hkind])
      (agree_queryBody ctx op hkind (hplain query hkind))
  | write write =>
    exact hmethod (by rw [Operation.isGenerated, hkind]) (agree_writeBody ctx op hkind)

/-- Methods for generated operations are counterparts, one by one. -/
theorem forall₃_generated {operations : List Operation} {found found' : List (Option Method)}
    (h : List.Forall₃ (MethodCounterpart? ctx) operations found found') :
    List.Forall₃ (Method.Counterpart ctx) (operations.filter (·.isGenerated))
      (found.filterMap id) (found'.filterMap id) := by
  induction h with
  | nil => exact .nil
  | cons hop _ ih =>
    cases hop with
    | custom hcustom => rwa [List.filter_cons_of_neg (by simp [hcustom])]
    | generated hgenerated hm =>
      rw [List.filter_cons_of_pos hgenerated]
      exact .cons hm ih

/-- The implementations of a DAO on both dialects. -/
structure DaoImpl.Counterpart (dao : Dao) (d d' : DaoImpl) : Prop where
  imports : d'.imports = d.imports
  interface : d'.interface = d.interface
  methods : List.Forall₃ (Method.Counterpart ctx) (dao.operations.filter (·.isGenerated)) d.methods
    d'.methods

/-- The name of the implementation of a DAO on a dialect. -/
def implementationName (dao : QualifiedName) (target : Target) (dialect : Dialect) : String :=
  dao.simple ++ (target.suffix ++ (dialect.suffix ++ "Impl"))

theorem nameOf_eq (dao : QualifiedName) (dialect : Dialect) : DaoImpl.nameOf (ctx.on dialect) dao =
    identifier (implementationName dao ctx.target dialect) := by
  simp [DaoImpl.nameOf, joinedName, implementationName, Context.on, String.join,
    String.append_assoc]

/-- The endings of the names of implementations. -/
theorem isEnding_suffixes (target : Target) (dialect : Dialect) :
    IsEnding (target.suffix ++ (dialect.suffix ++ "Impl")).toList := by
  have hletters : (target.suffix ++ (dialect.suffix ++ "Impl")).toList.all Char.isAlpha = true := by
    cases target <;> cases dialect <;> decide
  refine ⟨List.all_eq_true.mp hletters, ?_⟩
  rw [String.toList_append, String.toList_append, ← List.append_assoc]
  exact List.suffix_append _ _

/-- Implementations have names that can be used on both dialects, or on none. -/
theorem parseName_implementationName (dao : QualifiedName) (target : Target) :
    (∀ dialect, ∃ name, parseName (implementationName dao target dialect) = some name) ∨
      ∀ dialect, parseName (implementationName dao target dialect) = none := by
  have hname (dialect : Dialect) : implementationName dao target dialect =
      dao.simple ++ String.ofList (target.suffix ++ (dialect.suffix ++ "Impl")).toList := by
    rw [String.ofList_toList, implementationName]
  simp only [hname]
  refine (parseName_append dao.simple).imp (fun h dialect => ?_) fun h dialect => ?_
  · exact h _ (isEnding_suffixes target dialect)
  · exact h _ (isEnding_suffixes target dialect)

variable {dao : Dao}

/-- Implementations whose structs have names agree. -/
theorem agree_daoImpl
    (hplain : ∀ op ∈ dao.operations, ∀ query, op.kind = .query query → query.overrides = [])
    (hname : ∀ dialect, ∃ name,
      parseName (implementationName dao.name ctx.target dialect) = some name) :
    Except.Agree (DaoImpl.Counterpart ctx dao)
      (DaoImpl.ofDao (ctx.on .sqlite) dao) (DaoImpl.ofDao (ctx.on .postgres) dao) := by
  have hnames (dialect : Dialect) : ∃ name, DaoImpl.nameOf (ctx.on dialect) dao.name = .ok name :=
    (hname dialect).imp fun _ h =>
      (nameOf_eq ctx dao.name dialect).trans (identifier_eq_ok.mpr h)
  obtain ⟨name, hname⟩ := hnames .sqlite
  obtain ⟨name', hname'⟩ := hnames .postgres
  have hmethods : Except.Agree (List.Forall₃ (Method.Counterpart ctx)
        (dao.operations.filter (·.isGenerated)))
      (DaoImpl.methodsOf (ctx.on .sqlite) dao) (DaoImpl.methodsOf (ctx.on .postgres) dao) :=
    (Except.Agree.mapM fun op hop => agree_implementationMethod? ctx (hplain op hop)).bind
      fun _ _ hfound => .pure (forall₃_generated ctx hfound)
  unfold DaoImpl.ofDao
  rw [hname, hname']
  refine .bind (R := fun _ _ => True) (.ok trivial) fun name name' _ => ?_
  refine .bind_left _ fun interface _ => .bind_left _ fun imports _ => ?_
  exact hmethods.bind fun methods methods' h => .pure ⟨rfl, rfl, h⟩

/-! ## Routers -/

/-- The arguments for a parameter on both dialects: a parameter for the dialect receives the number
of it, any other the same value. -/
inductive SameArgument (param : LogicalParam) : Expr → Expr → Prop where
  | dialect (hparam : param.dbType = true) :
    SameArgument param (.number Dialect.sqlite.discriminator)
      (.number Dialect.postgres.discriminator)
  | sent {text : String} (hparam : param.dbType = false)
    (htext : identifier param.name = .ok text) :
    SameArgument param (Handler.passed param.ty text) (Handler.passed param.ty text)

/-- The handlers of an operation on both dialects: the call of the operation differs, in the
arguments for the dialect. -/
structure Handler.Counterpart (h h' : Handler) : Prop where
  handler : { h' with body := h.body } = h
  body : ∃ method fields args args' value, List.Forall₃ SameArgument op.params args args' ∧
    h.body = bodyOf ctx h.request fields (callOf ctx op method args) value ∧
    h'.body = bodyOf ctx h.request fields (callOf ctx op method args') value

/-- What is generated for an operation on both dialects. -/
structure Endpoint.Counterpart (e e' : Endpoint) : Prop where
  request : e'.request = e.request
  route : e'.route = e.route
  handler : e.handler.Counterpart ctx op e'.handler

/-- The routers of a DAO on both dialects. -/
structure Router.Counterpart (dao : Dao) (r r' : Router) : Prop where
  router : { r' with endpoints := r.endpoints } = r
  endpoints : List.Forall₃ (Endpoint.Counterpart ctx) dao.operations r.endpoints r'.endpoints

theorem agree_argumentOf (param : LogicalParam) : Except.Agree (SameArgument param)
    (Handler.argumentOf (ctx.on .sqlite) param) (Handler.argumentOf (ctx.on .postgres) param) := by
  unfold Handler.argumentOf
  cases hparam : param.dbType with
  | true => exact .ok (.dialect hparam)
  | false => exact .bind_left _ fun text htext => .pure (.sent hparam htext)

theorem agree_handler (interface : List Token) (dao : QualifiedName) (name request : String) :
    Except.Agree (Handler.Counterpart ctx op)
      (Handler.ofOperation (ctx.on .sqlite) interface dao op name request)
      (Handler.ofOperation (ctx.on .postgres) interface dao op name request) := by
  unfold Handler.ofOperation
  refine .bind_left _ fun method _ => .bind_left _ fun fields _ => ?_
  have hargs : Except.Agree (List.Forall₃ SameArgument op.params) _ _ :=
    .mapM fun param _ => agree_argumentOf ctx param
  refine hargs.bind fun args args' hargs => ?_
  cases Conversion.ofType .toCanonical op.declaredResult with
  | error ty => exact .error _
  | ok conversion =>
    refine .bind_left _ fun response _ => .pure ⟨rfl, ?_⟩
    exact ⟨method, fields, args, args', _, hargs, rfl, rfl⟩

theorem agree_endpoint (interface : List Token) (dao : QualifiedName) :
    Except.Agree (Endpoint.Counterpart ctx op)
      (Endpoint.ofOperation (ctx.on .sqlite) interface dao op)
      (Endpoint.ofOperation (ctx.on .postgres) interface dao op) := by
  unfold Endpoint.ofOperation
  refine .bind_left _ fun requestName _ => .bind_left _ fun handlerName _ =>
    .bind_left _ fun request _ => ?_
  exact (agree_handler ctx op interface dao handlerName requestName).bind fun handler handler' h =>
    .pure ⟨rfl, rfl, h⟩

theorem agree_router : Except.Agree (Router.Counterpart ctx dao)
    (Router.ofDao (ctx.on .sqlite) dao) (Router.ofDao (ctx.on .postgres) dao) := by
  unfold Router.ofDao
  refine .bind_left _ fun imports _ => .bind_left _ fun interface _ => .bind_left _ fun name _ => ?_
  have hendpoints : Except.Agree (List.Forall₃ (Endpoint.Counterpart ctx) dao.operations) _ _ :=
    .mapM fun op _ => agree_endpoint ctx op interface dao.name
  exact hendpoints.bind fun endpoints endpoints' h => .pure ⟨rfl, h⟩

/-! ## DAOs -/

/-- The two dialects implement the same operations. Without queries for single dialects, routers are
generated for both or fail with the same cause, and so are implementations, unless their structs
cannot have the names that they are to have: then both fail, each with its own name. What is
generated supplies the same parameters at all uses and has the right lengths of arrays. -/
theorem dialects_agree (ctx : Context) (dao : Dao)
    (hplain : ∀ op ∈ dao.operations, ∀ query, op.kind = .query query → query.overrides = []) :
    ((∀ dialect, ∃ name,
          parseName (implementationName dao.name ctx.target dialect) = some name) ∧
        Except.Agree (DaoImpl.Counterpart ctx dao)
          (DaoImpl.ofDao (ctx.on .sqlite) dao) (DaoImpl.ofDao (ctx.on .postgres) dao) ∨
      ∀ dialect, parseName (implementationName dao.name ctx.target dialect) = none ∧
        DaoImpl.ofDao (ctx.on dialect) dao =
          .error (.invalidIdentifier (implementationName dao.name ctx.target dialect))) ∧
    Except.Agree (Router.Counterpart ctx dao)
      (Router.ofDao (ctx.on .sqlite) dao) (Router.ofDao (ctx.on .postgres) dao) := by
  refine ⟨?_, agree_router ctx⟩
  refine (parseName_implementationName dao.name ctx.target).imp (fun hname => ?_) ?_
  · exact ⟨hname, agree_daoImpl ctx hplain hname⟩
  · intro hnone dialect
    refine ⟨hnone dialect, ?_⟩
    have hname : DaoImpl.nameOf (ctx.on dialect) dao.name =
        .error (.invalidIdentifier (implementationName dao.name ctx.target dialect)) := by
      rw [nameOf_eq, identifier, hnone dialect]
    rw [DaoImpl.ofDao, hname]
    rfl

/-- A query uses one parameter twice. -/
theorem dialects_agree_twice :
    let op : Operation := {
      name := "purge"
      params := [{ name := "id", ty := { name := "i64" } }]
      kind := .query { sql := "DELETE FROM t WHERE a = :id OR b = :id" } }
    let dao : Dao := { name := ⟨"db::TagDao"⟩, operations := [op] }
    let ctx : Context := { model := {}, target := .jvm, dialect := .sqlite, runtime := "replikit" }
    Except.Agree (DaoImpl.Counterpart ctx dao)
        (DaoImpl.ofDao (ctx.on .sqlite) dao) (DaoImpl.ofDao (ctx.on .postgres) dao) ∧
      Except.Agree (Router.Counterpart ctx dao)
        (Router.ofDao (ctx.on .sqlite) dao) (Router.ofDao (ctx.on .postgres) dao) ∧
      (DaoImpl.ofDao (ctx.on .sqlite) dao).toOption.isSome = true ∧
      (Router.ofDao (ctx.on .sqlite) dao).toOption.isSome = true := by
  intro op dao ctx
  have hplain : ∀ op ∈ dao.operations, ∀ query, op.kind = .query query → query.overrides = [] := by
    rintro _ (_ | ⟨_, ⟨⟩⟩) query ⟨⟩
    rfl
  obtain ⟨⟨_, himpl⟩ | hnone, hrouter⟩ := dialects_agree ctx dao hplain
  · refine ⟨himpl, hrouter, ?_⟩
    decide +kernel
  · have hname : parseName (implementationName dao.name ctx.target .sqlite) ≠ none := by
      decide +kernel
    exact absurd (hnone .sqlite).1 hname

/-- The name of a struct has the dialect in it, so the causes differ if it cannot be used. -/
theorem dialects_disagree_unnamed :
    let dao : Dao := { name := ⟨"db::1Dao"⟩, operations := [] }
    let ctx : Context := { model := {}, target := .jvm, dialect := .sqlite, runtime := "replikit" }
    (DaoImpl.ofDao (ctx.on .sqlite) dao).error? = some (.invalidIdentifier "1DaoJvmSqliteImpl") ∧
      (DaoImpl.ofDao (ctx.on .postgres) dao).error? =
        some (.invalidIdentifier "1DaoJvmPostgresImpl") ∧
      (DaoImpl.ofDao (ctx.on .sqlite) dao).error? ≠
        (DaoImpl.ofDao (ctx.on .postgres) dao).error? := by
  decide +kernel

end Emission

end DaoGen
