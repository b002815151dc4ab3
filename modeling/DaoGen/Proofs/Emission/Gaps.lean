import DaoGen.Proofs.Emission.Attempts
import DaoGen.Proofs.Model.Closed

/-!
# Gaps of models

An emission can fail because a model names an entity that is not in it, or has one without a key.
There are no such failures on closed models. All other failures are about what declarations say:
names, types, attributes, queries and results.
-/
namespace DaoGen

/-- A failure that a gap of the models is to blame for. -/
inductive EmitCause.IsGap : EmitCause → Prop where
  | unmodeledEntity (operation : String) (name : QualifiedName) :
    IsGap (.unsupportedOperation operation (.unmodeledEntity name))
  | noPrimaryKey (operation : String) (name : QualifiedName) :
    IsGap (.unsupportedOperation operation (.write (.noPrimaryKey name)))

namespace Emission

open Code

/-- A computation that no gap of the models keeps from succeeding. -/
def Gapless {α : Type} (x : Except EmitCause α) : Prop := x.FailsOnly fun cause => ¬ cause.IsGap

namespace Gapless

variable {α β : Type}

theorem ok (a : α) : Gapless (.ok a) := Except.FailsOnly.ok a

theorem pure (a : α) : Gapless (Pure.pure a) := Except.FailsOnly.pure a

theorem error {cause : EmitCause} (h : ¬ cause.IsGap) : Gapless (.error cause : Except _ α) :=
  Except.FailsOnly.error h

theorem bind {x : Except EmitCause α} {f : α → Except EmitCause β} (hx : Gapless x)
    (hf : ∀ a, Gapless (f a)) : Gapless (x >>= f) := Except.FailsOnly.bind hx hf

theorem mapM {f : α → Except EmitCause β} (h : ∀ a, Gapless (f a)) (as : List α) :
    Gapless (as.mapM f) := Except.FailsOnly.mapM fun a _ => h a

/-- The failure of a unit is that of its content. -/
theorem unit {x : Except EmitCause α} (hx : Gapless x) (subject : QualifiedName)
    (f : α → UnitCode) :
    ((x.mapError (subject, ·)).map f).FailsOnly fun e => ¬ e.2.IsGap := by
  refine Except.FailsOnly.map ?_ f
  exact Except.FailsOnly.mapError hx fun _ h => h

end Gapless

/-! ## Names -/

theorem gapless_identifier (text : String) : Gapless (identifier text) := by
  unfold identifier
  split
  · exact .ok _
  · exact .error nofun

theorem gapless_typeTokens (ty : TypeRef) : Gapless (typeTokens ty) := by
  unfold typeTokens
  split
  · exact .ok _
  · exact .error nofun

theorem gapless_cratePath (name : QualifiedName) : Gapless (cratePath name) := by
  unfold cratePath
  split
  · exact .ok _
  · exact .error nofun

theorem gapless_attributeTokens (text : String) : Gapless (attributeTokens text) := by
  unfold attributeTokens
  split
  · exact .ok _
  · exact .error nofun

theorem gapless_moduleImport (name : QualifiedName) : Gapless (moduleImport name) := by
  unfold moduleImport
  split
  · exact .ok _
  · exact .error nofun

/-! ## Methods -/

theorem gapless_names (params : List LogicalParam) :
    Gapless (params.mapM fun p => identifier p.name) := by
  refine .mapM ?_ params
  intro p
  exact gapless_identifier p.name

namespace MethodHeader

theorem gapless_bindingOf (param : LogicalParam) (name : String) :
    Gapless (bindingOf param name) := by
  unfold bindingOf
  exact (gapless_typeTokens param.ty).bind fun _ => .pure _

theorem gapless_paramsOf (params : List LogicalParam) : Gapless (paramsOf params) := by
  refine Gapless.bind (gapless_names params) fun names => .mapM ?_ (params.zip names)
  rintro ⟨param, name⟩
  exact gapless_bindingOf param name

theorem gapless_continuationOf (ctx : Context) (suspension : Suspension) :
    Gapless (continuationOf ctx suspension) := by
  cases suspension with
  | blocking => exact .ok none
  | async => exact .ok none
  | continuation param ty =>
    refine (gapless_identifier param).bind fun name => ?_
    cases ty.firstArg? with
    | none => exact .error nofun
    | some carried => exact (gapless_typeTokens carried).bind fun _ => .pure _

theorem gapless_resultOf (declared : Option TypeRef) : Gapless (resultOf declared) := by
  cases declared with
  | none => exact .ok none
  | some ty => exact (gapless_typeTokens ty).bind fun _ => .pure _

theorem gapless_ofOperation (ctx : Context) (op : Operation) : Gapless (ofOperation ctx op) := by
  refine (gapless_identifier op.name).bind fun name => ?_
  refine Gapless.bind (.mapM gapless_attributeTokens _) fun attributes => ?_
  refine (gapless_paramsOf op.params).bind fun params => ?_
  refine (gapless_continuationOf ctx op.suspension).bind fun continuation => ?_
  exact (gapless_resultOf op.declaredReturn).bind fun result => .pure _

end MethodHeader

/-! ## Bodies -/

theorem gapless_queryValue (op : Operation) (name : String) : Gapless (queryValue op name) := by
  unfold queryValue
  split
  · exact .error nofun
  · exact (gapless_identifier _).bind fun _ => .pure _

theorem gapless_queryCall (op : Operation) (written sql : String) :
    Gapless (queryCall op written sql) := by
  unfold queryCall
  dsimp only
  split
  · exact .ok _
  · split
    · split
      · exact (gapless_typeTokens _).bind fun _ => .pure _
      · exact .error nofun
    · split
      · exact (gapless_typeTokens _).bind fun _ => .pure _
      · split
        · exact (gapless_typeTokens _).bind fun _ => .pure _
        · exact (gapless_typeTokens _).bind fun _ => .pure _

theorem gapless_queryBody (ctx : Context) (op : Operation) (query : Query) :
    Gapless (queryBody ctx op query) := by
  refine Gapless.bind (.mapM (gapless_queryValue op) _) fun values => ?_
  exact (gapless_queryCall op _ _).bind fun _ => .pure _

theorem gapless_writeResult (op : Operation) (write : Write) : Gapless (writeResult op write) := by
  unfold writeResult
  dsimp only
  split
  · exact .ok _
  · split
    · exact (gapless_typeTokens _).bind fun _ => .pure _
    · split
      · exact (gapless_typeTokens _).bind fun _ => .pure _
      · exact .error nofun

theorem gapless_writeOne (ctx : Context) (statement : Sql.WriteStatement) (item : String) :
    Gapless (writeOne ctx statement item) := by
  refine Gapless.bind (.mapM (fun f => ?_) _) fun values => .pure _
  exact (gapless_identifier f.name).bind fun _ => .pure _

/-- A write has a statement, unless it updates an entity with nothing but a key. -/
theorem gapless_writeBody {ctx : Context} {entity : Entity} {key : Field} (op : Operation)
    {write : Write} (hentity : ctx.model.entity? write.entity = some entity)
    (hkey : entity.primaryKey? = some key) : Gapless (writeBody ctx op write) := by
  unfold writeBody
  simp only [hentity]
  split
  · next fault hfault =>
    refine .error fun hgap => ?_
    cases hgap
    simp only [Sql.WriteStatement.ofEntity, hkey] at hfault
    split at hfault
    · cases hfault
    · cases hfault
    · split at hfault <;> cases hfault
    · cases hfault
  · refine (gapless_writeResult op write).bind fun result => ?_
    refine (gapless_identifier write.param).bind fun param => ?_
    split
    · exact (gapless_writeOne ctx _ _).bind fun _ => .pure _
    · exact (gapless_writeOne ctx _ _).bind fun _ => .pure _

theorem gapless_methodWith (ctx : Context) (op : Operation) (compute : Body) :
    Gapless (methodWith ctx op compute) := by
  refine (MethodHeader.gapless_ofOperation ctx op).bind fun header => ?_
  split
  · exact .error nofun
  · exact .pure _

/-! ## Units -/

theorem gapless_implementationMethod? {ctx : Context} (hclosed : ctx.model.Closed) {dao : Dao}
    (hdao : dao ∈ ctx.model.daos) {op : Operation} (hop : op ∈ dao.operations) :
    Gapless (implementationMethod? ctx op) := by
  unfold implementationMethod?
  split
  · exact .ok _
  · refine (gapless_queryBody ctx op _).bind fun body => ?_
    exact (gapless_methodWith ctx op body).bind fun _ => .pure _
  · next write hkind =>
    obtain ⟨entity, key, hentity, hkey⟩ := hclosed.exists_key hdao hop hkind
    refine (gapless_writeBody op hentity hkey).bind fun body => ?_
    exact (gapless_methodWith ctx op body).bind fun _ => .pure _

theorem gapless_daoImpl {ctx : Context} (hclosed : ctx.model.Closed) {dao : Dao}
    (hdao : dao ∈ ctx.model.daos) : Gapless (DaoImpl.ofDao ctx dao) := by
  refine (gapless_identifier _).bind fun name => ?_
  refine (gapless_cratePath dao.name).bind fun interface => ?_
  refine (gapless_moduleImport dao.name).bind fun imports => ?_
  refine Gapless.bind (.bind ?_ fun _ => .pure _) fun methods => .pure _
  exact Except.FailsOnly.mapM fun op hop => gapless_implementationMethod? hclosed hdao hop

theorem gapless_attachmentOf (attachment : Option Attachment) :
    Gapless (Recording.attachmentOf attachment) := by
  cases attachment with
  | none => exact .ok none
  | some a =>
    refine (gapless_identifier a.uri).bind fun uri => ?_
    refine (gapless_identifier a.md5).bind fun md5 => ?_
    exact (gapless_identifier a.size).bind fun size => .pure _

theorem gapless_recording {ctx : Context} (hclosed : ctx.model.Closed) {dao : Dao}
    (hdao : dao ∈ ctx.model.daos) {op : Operation} (hop : op ∈ dao.operations) :
    Gapless (Recording.ofOperation? ctx op) := by
  unfold Recording.ofOperation?
  split
  · exact .ok _
  · split
    · next write hkind =>
      obtain ⟨entity, key, hentity, _⟩ := hclosed.exists_key hdao hop hkind
      refine Gapless.bind ?_ fun _ => .pure _
      unfold Recording.ofWrite
      simp only [hentity]
      refine (gapless_identifier write.param).bind fun param => ?_
      exact (gapless_attachmentOf entity.attachment).bind fun _ => .pure _
    · refine Gapless.bind ?_ fun _ => .pure _
      unfold Recording.ofQuery
      split
      · exact .error nofun
      · split
        · exact .error nofun
        · exact .ok _
    · exact .ok _

theorem gapless_replication {ctx : Context} (hclosed : ctx.model.Closed) {dao : Dao}
    (hdao : dao ∈ ctx.model.daos) : Gapless (Replication.ofDao ctx dao) := by
  refine (gapless_identifier _).bind fun name => ?_
  refine (gapless_cratePath dao.name).bind fun interface => ?_
  refine (gapless_moduleImport dao.name).bind fun imports => ?_
  refine Gapless.bind (.bind ?_ fun _ => .pure _) fun methods => .pure _
  refine Except.FailsOnly.mapM fun op hop => ?_
  unfold Replication.method?
  split
  · exact .ok _
  · refine (MethodHeader.gapless_ofOperation ctx op).bind fun header => ?_
    exact (gapless_recording hclosed hdao hop).bind fun recording => .pure _

theorem gapless_requestStruct (dao : QualifiedName) (op : Operation) (name : String) :
    Gapless (RequestStruct.ofOperation dao op name) := by
  refine Gapless.bind (.mapM (fun param => ?_) _) fun fields => .pure _
  unfold RequestStruct.fieldOf
  refine (gapless_identifier param.name).bind fun name => ?_
  exact (gapless_typeTokens param.ty.wire).bind fun _ => .pure _

theorem gapless_argumentOf (ctx : Context) (param : LogicalParam) :
    Gapless (Handler.argumentOf ctx param) := by
  unfold Handler.argumentOf
  split
  · exact .ok _
  · exact (gapless_identifier param.name).bind fun _ => .pure _

theorem gapless_handler (ctx : Context) (interface : List Token) (dao : QualifiedName)
    (op : Operation) (name request : String) :
    Gapless (Handler.ofOperation ctx interface dao op name request) := by
  refine (gapless_identifier op.name).bind fun method => ?_
  refine Gapless.bind (gapless_names _) fun fields => ?_
  refine Gapless.bind (.mapM (fun p => ?_) _) fun args => ?_
  · exact gapless_argumentOf ctx p
  · split
    · exact .error nofun
    · exact (gapless_typeTokens op.returnType).bind fun _ => .pure _

theorem gapless_router (ctx : Context) (dao : Dao) : Gapless (Router.ofDao ctx dao) := by
  refine (gapless_moduleImport dao.name).bind fun imports => ?_
  refine (gapless_cratePath dao.name).bind fun interface => ?_
  refine (gapless_identifier _).bind fun name => ?_
  refine Gapless.bind (.mapM (fun op => ?_) _) fun endpoints => .pure _
  refine (gapless_identifier _).bind fun requestName => ?_
  refine (gapless_identifier _).bind fun handlerName => ?_
  refine (gapless_requestStruct dao.name op requestName).bind fun request => ?_
  exact (gapless_handler ctx interface dao.name op handlerName requestName).bind fun _ => .pure _

theorem gapless_accessor (ctx : Context) (dao : QualifiedName) :
    Gapless (Accessor.ofDao ctx dao) := by
  refine (gapless_identifier _).bind fun name => ?_
  refine (gapless_identifier _).bind fun module => ?_
  exact (gapless_identifier _).bind fun type => .pure _

theorem gapless_databaseStruct (ctx : Context) (database : Database) :
    Gapless (DatabaseStruct.ofDatabase ctx database) := by
  refine (gapless_identifier _).bind fun name => ?_
  refine (gapless_moduleImport database.name).bind fun imports => ?_
  refine Gapless.bind (.mapM (fun table => ?_) _) fun tables => ?_
  · unfold DatabaseStruct.tableOf
    split
    · exact .error nofun
    · exact gapless_identifier _
  · exact Gapless.bind (.mapM (gapless_accessor ctx) _) fun accessors => .pure _

theorem gapless_schemaModule (dialect : Dialect) (entity : Entity) :
    Gapless (SchemaModule.ofEntity dialect entity) := by
  refine (gapless_identifier _).bind fun name => ?_
  split
  · exact .error nofun
  · exact .pure _

theorem Schema.modulesOf_failsOnly (dialect : Dialect) (entities : List Entity) :
    (Schema.modulesOf dialect entities).FailsOnly fun e => ¬ e.2.IsGap := by
  induction entities with
  | nil => exact .ok []
  | cons entity rest ih =>
    refine .bind (.mapError (gapless_schemaModule dialect entity) fun _ h => h) fun m => ?_
    exact ih.bind fun _ => .pure _

end Emission

open Emission

/-- On a closed model, no job fails because of a gap. -/
theorem Job.run_failsOnly {ctx : Context} (hclosed : ctx.model.Closed) {emitter : Emitter}
    {job : Job} (hjob : job ∈ emitter.jobs ctx.model) :
    (job.run ctx).FailsOnly fun e => ¬ e.2.IsGap := by
  rcases Emitter.mem_jobs hjob with ⟨_, rfl⟩ | ⟨_, database, _, rfl⟩ | ⟨dao, hdao, rfl⟩
  · exact .map (.bind (Schema.modulesOf_failsOnly _ _) fun _ => .pure _) _
  · exact (gapless_databaseStruct ctx database).unit _ _
  · cases emitter with
    | implementation => exact (gapless_daoImpl hclosed hdao).unit _ _
    | replication => exact (gapless_replication hclosed hdao).unit _ _
    | http => exact (gapless_router ctx dao).unit _ _

theorem TargetEmission.not_isGap_of_mem_errors {model : Model} (hclosed : model.Closed)
    {emitters : List Emitter} {target : Target} {runtime : String} {e : EmissionError}
    (h : e ∈ (ofModel emitters model target runtime).errors) : ¬ e.cause.IsGap := by
  rw [errors_ofModel] at h
  obtain ⟨a, hattempt, herror⟩ := List.mem_filterMap.mp h
  obtain ⟨_, _, _, hjob⟩ := mem_attempts.mp hattempt
  obtain ⟨subject, cause, hrun, rfl⟩ := EmissionAttempt.run_eq_error.mp
    (Except.error?_eq_some.mp herror)
  exact Job.run_failsOnly hclosed hjob _ hrun

/-- The table of an entity that a closed model lists is named after that entity. -/
theorem Model.Closed.tableOf_eq {ctx : Context} (hclosed : ctx.model.Closed) {database : Database}
    (hdatabase : database ∈ ctx.model.databases) {name : QualifiedName}
    (hname : name ∈ database.entities) :
    ∃ entity ∈ ctx.model.entities, entity.name = name ∧
      DatabaseStruct.tableOf ctx name = SchemaModule.nameOf entity := by
  obtain ⟨entity, hmem, heq, hentity⟩ :=
    exists_entity? ((hclosed.databases database hdatabase).entities_modeled name hname)
  exact ⟨entity, hmem, heq, by simp only [DatabaseStruct.tableOf, hentity]⟩

/-- The models of a source are closed. From such models, no unit of any emitter on any target fails
because of an entity that is not modeled or has no key, and every table of a database is that of a
modeled entity. -/
theorem Extraction.ofSource_closed_gapless (source : DeclarationSource) :
    (ofSource source).model.Closed ∧
      (∀ emitters target runtime,
        ∀ e ∈ (TargetEmission.ofModel emitters (ofSource source).model target runtime).errors,
          ¬ e.cause.IsGap) ∧
      ∀ target dialect runtime,
        let ctx : Context := ⟨(ofSource source).model, target, dialect, runtime⟩
        (∀ emitter : Emitter, ∀ job ∈ emitter.jobs ctx.model, ∀ subject cause,
          job.run ctx = .error (subject, cause) → ¬ cause.IsGap) ∧
        ∀ database ∈ ctx.model.databases, ∀ name ∈ database.entities,
          ∃ entity ∈ ctx.model.entities, entity.name = name ∧
            DatabaseStruct.tableOf ctx name = SchemaModule.nameOf entity := by
  have hclosed := Model.Closed.ofSource source
  refine ⟨hclosed, ?_, ?_⟩
  · intro emitters target runtime e he
    exact TargetEmission.not_isGap_of_mem_errors hclosed he
  · intro target dialect runtime ctx
    refine ⟨?_, ?_⟩
    · intro emitter job hjob subject cause hrun
      have hctx : ctx.model.Closed := hclosed
      exact Job.run_failsOnly hctx hjob (subject, cause) hrun
    · intro database hdatabase name hname
      have hctx : ctx.model.Closed := hclosed
      exact hctx.tableOf_eq hdatabase hname

end DaoGen
