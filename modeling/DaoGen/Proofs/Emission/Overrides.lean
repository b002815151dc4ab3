import DaoGen.Proofs.Emission.Siblings

/-!
# Queries of single dialects

The queries that replace the neutral ones on a dialect are read for the implementations of DAOs on
that dialect and for nothing else. If two models differ in such queries only, everything else that a
target gives for them is the same.

## Main definitions

* `Model.withoutOverrides`: a model without the queries of a dialect.
* `EmissionAttempt.isOverridable`: an attempt to implement a DAO on a dialect.
* `TargetEmission.AgreesOutside`: emissions with the same units and errors, but for implementations
  of DAOs on a dialect.

## Main results

* `Job.run_withoutOverrides`: which jobs read the queries of a dialect.
* `TargetEmission.ofModel_overrides`: emissions of models that differ in the queries of a dialect.
-/
namespace DaoGen

/-! ## Models without the queries of a dialect -/

section WithoutOverrides

variable (d : Dialect)

/-- A query without those that replace it on a dialect. -/
def Query.withoutOverrides (query : Query) : Query :=
  { query with overrides := query.overrides.filter (·.1 != d) }

def OperationKind.withoutOverrides : OperationKind → OperationKind
  | .query q => .query (q.withoutOverrides d)
  | .write w => .write w
  | .custom => .custom

/-- Whether an annotation gives a query of a dialect. -/
def Annotation.isOverride : Annotation → Bool
  | .dialectQuery dialect _ => dialect == d
  | _ => false

/-- An operation without the queries of a dialect, both those that it runs and those that it is
annotated with. -/
def Operation.withoutOverrides (op : Operation) : Operation :=
  { op with
    kind := op.kind.withoutOverrides d
    annotations := op.annotations.filter (!·.isOverride d) }

def Dao.withoutOverrides (dao : Dao) : Dao :=
  { dao with operations := dao.operations.map (Operation.withoutOverrides d) }

/-- A model without the queries of a dialect. -/
def Model.withoutOverrides (model : Model) : Model :=
  { model with daos := model.daos.map (Dao.withoutOverrides d) }

def Job.withoutOverrides : Job → Job
  | .schema => .schema
  | .database db => .database db
  | .daoImpl dao => .daoImpl (dao.withoutOverrides d)
  | .replication dao => .replication (dao.withoutOverrides d)
  | .httpEndpoint dao => .httpEndpoint (dao.withoutOverrides d)

def EmissionAttempt.withoutOverrides (a : EmissionAttempt) : EmissionAttempt :=
  { a with job := a.job.withoutOverrides d }

end WithoutOverrides

/-! ## What is read of an operation -/

namespace Emission

open Code

variable {d : Dialect} (ctx : Context) (op : Operation)

/-- The query on another dialect stays. -/
theorem sqlFor_withoutOverrides {dialect : Dialect} (h : dialect ≠ d) (query : Query) :
    (query.withoutOverrides d).sqlFor dialect = query.sqlFor dialect := by
  have hfind : (query.overrides.filter (·.1 != d)).find? (·.1 == dialect) =
      query.overrides.find? (·.1 == dialect) := by
    rw [List.find?_filter]
    congr 1
    funext override
    by_cases hdialect : override.1 = dialect
    · simp [hdialect, h]
    · simp [hdialect]
  rw [Query.sqlFor, Query.withoutOverrides, hfind]
  rfl

theorem passthroughs_withoutOverrides (annotations : List Annotation) :
    Annotation.passthroughs (annotations.filter (!·.isOverride d)) =
      Annotation.passthroughs annotations := by
  unfold Annotation.passthroughs
  rw [List.filterMap_filter]
  refine List.filterMap_congr fun annotation _ => ?_
  cases annotation with
  | dialectQuery dialect sql => exact ite_self none
  | _ => rfl

theorem header_withoutOverrides :
    MethodHeader.ofOperation ctx (op.withoutOverrides d) = MethodHeader.ofOperation ctx op := by
  unfold MethodHeader.ofOperation
  simp only [Operation.withoutOverrides, passthroughs_withoutOverrides]

theorem methodWith_withoutOverrides (compute : Body) :
    methodWith ctx (op.withoutOverrides d) compute = methodWith ctx op compute := by
  unfold methodWith
  rw [header_withoutOverrides]
  rfl

/-- The implementation on another dialect does not read the queries of a dialect. -/
theorem implementationMethod?_withoutOverrides (h : ctx.dialect ≠ d) :
    implementationMethod? ctx (op.withoutOverrides d) = implementationMethod? ctx op := by
  unfold implementationMethod?
  cases hkind : op.kind with
  | custom => simp only [Operation.withoutOverrides, hkind, OperationKind.withoutOverrides]
  | write write =>
    simp only [methodWith_withoutOverrides]
    simp only [Operation.withoutOverrides, hkind, OperationKind.withoutOverrides]
    rfl
  | query query =>
    have hbody : queryBody ctx (op.withoutOverrides d) (query.withoutOverrides d) =
        queryBody ctx op query := by
      unfold queryBody
      rw [sqlFor_withoutOverrides h]
      rfl
    simp only [methodWith_withoutOverrides]
    rw [← hbody]
    simp only [Operation.withoutOverrides, hkind, OperationKind.withoutOverrides]

/-- A wrapper reads the neutral query, on whatever dialect. -/
theorem replicationMethod?_withoutOverrides :
    Replication.method? ctx (op.withoutOverrides d) = Replication.method? ctx op := by
  have hrecording : Recording.ofOperation? ctx (op.withoutOverrides d) =
      Recording.ofOperation? ctx op := by
    obtain ⟨_, _, _, _, _, kind, _, _⟩ := op
    cases kind <;> rfl
  have hgenerated : (op.withoutOverrides d).isGenerated = op.isGenerated := by
    obtain ⟨_, _, _, _, _, kind, _, _⟩ := op
    cases kind <;> rfl
  unfold Replication.method?
  rw [header_withoutOverrides, hrecording, hgenerated]
  rfl

/-- An endpoint does not read what its operation runs. -/
theorem endpoint_withoutOverrides (interface : List Token) (dao : QualifiedName) :
    Endpoint.ofOperation ctx interface dao (op.withoutOverrides d) =
      Endpoint.ofOperation ctx interface dao op :=
  rfl

variable (dao : Dao)

theorem daoImpl_withoutOverrides (h : ctx.dialect ≠ d) :
    DaoImpl.ofDao ctx (dao.withoutOverrides d) = DaoImpl.ofDao ctx dao := by
  have hmethods : DaoImpl.methodsOf ctx (dao.withoutOverrides d) = DaoImpl.methodsOf ctx dao := by
    unfold DaoImpl.methodsOf Dao.withoutOverrides
    simp only [List.mapM_map, Function.comp_def, implementationMethod?_withoutOverrides ctx _ h]
  unfold DaoImpl.ofDao
  rw [hmethods]
  rfl

theorem replication_withoutOverrides :
    Replication.ofDao ctx (dao.withoutOverrides d) = Replication.ofDao ctx dao := by
  have hmethods : Replication.methodsOf ctx (dao.withoutOverrides d) =
      Replication.methodsOf ctx dao := by
    unfold Replication.methodsOf Dao.withoutOverrides
    simp only [List.mapM_map, Function.comp_def, replicationMethod?_withoutOverrides]
  unfold Replication.ofDao
  rw [hmethods]
  rfl

theorem router_withoutOverrides :
    Router.ofDao ctx (dao.withoutOverrides d) = Router.ofDao ctx dao := by
  unfold Router.ofDao Dao.withoutOverrides
  simp only [List.mapM_map, Function.comp_def, endpoint_withoutOverrides]

end Emission

/-! ## Attempts -/

section Attempts

variable (d : Dialect) (model : Model)

/-- Whether a job is to implement a DAO on a dialect. -/
def EmissionAttempt.isOverridable (a : EmissionAttempt) : Bool :=
  a.job.kind == .daoImpl && a.dialect == d

namespace Job

@[simp] theorem kind_withoutOverrides (job : Job) : (job.withoutOverrides d).kind = job.kind := by
  cases job <;> rfl

@[simp] theorem subject_withoutOverrides (job : Job) :
    (job.withoutOverrides d).subject = job.subject := by
  cases job <;> rfl

/-- Only implementations on a dialect read the queries of the dialect. -/
theorem run_withoutOverrides (target : Target) (dialect : Dialect) (runtime : String) (job : Job)
    (h : job.kind = .daoImpl → dialect ≠ d) :
    (job.withoutOverrides d).run
        { model := model.withoutOverrides d, target, dialect, runtime } =
      job.run { model, target, dialect, runtime } := by
  -- no job reads the DAOs of its model
  have hmodel (other : Job) :
      other.run { model := model.withoutOverrides d, target, dialect, runtime } =
        other.run { model, target, dialect, runtime } :=
    rfl
  rw [hmodel]
  cases job with
  | schema => rfl
  | database database => rfl
  | daoImpl dao =>
    simp only [withoutOverrides, run]
    rw [Emission.daoImpl_withoutOverrides _ dao (h rfl)]
    rfl
  | replication dao =>
    simp only [withoutOverrides, run]
    rw [Emission.replication_withoutOverrides]
    rfl
  | httpEndpoint dao =>
    simp only [withoutOverrides, run]
    rw [Emission.router_withoutOverrides]
    rfl

end Job

theorem Model.dao?_withoutOverrides (name : QualifiedName) :
    (model.withoutOverrides d).dao? name = (model.dao? name).map (Dao.withoutOverrides d) := by
  rw [Model.dao?, Model.withoutOverrides, List.find?_map]
  rfl

namespace EmissionAttempt

variable (runtime : String) (a : EmissionAttempt)

@[simp] theorem isOverridable_withoutOverrides :
    (a.withoutOverrides d).isOverridable d = a.isOverridable d := by
  simp [isOverridable, withoutOverrides]

@[simp] theorem id_withoutOverrides : (a.withoutOverrides d).id = a.id := by
  obtain ⟨_, _, _, job⟩ := a
  cases job <;> rfl

theorem run_withoutOverrides (h : a.isOverridable d = false) :
    (a.withoutOverrides d).run (model.withoutOverrides d) runtime = a.run model runtime := by
  have hjob : a.job.kind = .daoImpl → a.dialect ≠ d := by
    simpa [isOverridable] using h
  unfold run
  simp only [withoutOverrides, Job.run_withoutOverrides d model _ _ _ _ hjob,
    Job.subject_withoutOverrides]
  rfl

theorem errorDiagnostic_withoutOverrides (e : EmissionError) :
    TargetEmission.errorDiagnostic (model.withoutOverrides d) (a.withoutOverrides d) e =
      TargetEmission.errorDiagnostic model a e := by
  have hlocation : TargetEmission.locationOf (model.withoutOverrides d) e.subject =
      TargetEmission.locationOf model e.subject := by
    unfold TargetEmission.locationOf
    rw [Model.dao?_withoutOverrides, Option.bind_map]
    rfl
  unfold TargetEmission.errorDiagnostic TargetEmission.errorLocation
  rw [hlocation]
  obtain ⟨_, _, _, job⟩ := a
  cases job <;> rfl

/-- What comes of an attempt does not depend on the queries of a dialect, unless it is to implement
a DAO on the dialect. -/
theorem answer_withoutOverrides (h : a.isOverridable d = false) :
    Answer.ofAttempt (model.withoutOverrides d) runtime (a.withoutOverrides d) =
      Answer.ofAttempt model runtime a := by
  unfold Answer.ofAttempt
  simp only [run_withoutOverrides d model runtime a h, errorDiagnostic_withoutOverrides]

end EmissionAttempt

theorem Emitter.jobs_withoutOverrides (emitter : Emitter) :
    emitter.jobs (model.withoutOverrides d) =
      (emitter.jobs model).map (Job.withoutOverrides d) := by
  have hshared : (emitter.sharedJobs model).map (Job.withoutOverrides d) =
      emitter.sharedJobs model := by
    refine (List.map_congr_left fun job hjob => ?_).trans (List.map_id _)
    obtain ⟨_, rfl | ⟨database, _, rfl⟩⟩ := mem_sharedJobs hjob <;> rfl
  have hdaos : (model.daos.map (Dao.withoutOverrides d)).map emitter.daoJob =
      (model.daos.map emitter.daoJob).map (Job.withoutOverrides d) := by
    rw [List.map_map, List.map_map]
    refine List.map_congr_left fun dao _ => ?_
    cases emitter <;> rfl
  rw [jobs, jobs, List.map_append, hshared, ← hdaos]
  rfl

theorem TargetEmission.attempts_withoutOverrides (emitters : List Emitter) (target : Target) :
    attempts emitters (model.withoutOverrides d) target =
      (attempts emitters model target).map (EmissionAttempt.withoutOverrides d) := by
  simp only [attempts, List.map_flatMap, List.map_map, Function.comp_def,
    Emitter.jobs_withoutOverrides]
  rfl

end Attempts

/-! ## Emissions -/

/-- Whether a unit is an implementation of a DAO on a dialect. -/
def SourceUnit.isOverridable (d : Dialect) (u : SourceUnit) : Bool :=
  u.id.kind == .daoImpl && u.id.dialect == some d

/-- Whether an error is of the implementation of one of some DAOs on a dialect. -/
def EmissionError.isOverridable (d : Dialect) (daos : List QualifiedName) (e : EmissionError) :
    Bool :=
  e.emitter == Emitter.implementation.name && e.dialect == some d && daos.contains e.subject

namespace TargetEmission

/-- Emissions with the same units and errors, but for implementations of the given DAOs on a
dialect. The diagnostics stand beside the errors that they are about. -/
structure AgreesOutside (d : Dialect) (daos : List QualifiedName) (x y : TargetEmission) :
    Prop where
  units : x.units.filter (!·.isOverridable d) = y.units.filter (!·.isOverridable d)
  errors : x.errors.filter (!·.isOverridable d daos) = y.errors.filter (!·.isOverridable d daos)
  reports : (x.errors.zip x.diagnostics).filter (!·.1.isOverridable d daos) =
    (y.errors.zip y.diagnostics).filter (!·.1.isOverridable d daos)

theorem AgreesOutside.symm {d : Dialect} {daos : List QualifiedName} {x y : TargetEmission}
    (h : AgreesOutside d daos x y) : AgreesOutside d daos y x :=
  ⟨h.units.symm, h.errors.symm, h.reports.symm⟩

theorem AgreesOutside.trans {d : Dialect} {daos : List QualifiedName} {x y z : TargetEmission}
    (h : AgreesOutside d daos x y) (h' : AgreesOutside d daos y z) : AgreesOutside d daos x z :=
  ⟨h.units.trans h'.units, h.errors.trans h'.errors, h.reports.trans h'.reports⟩

section OfModel

variable {d : Dialect} {model : Model} {emitters : List Emitter} {target : Target}
  {a : EmissionAttempt}

/-- Only the emitter of implementations implements DAOs. -/
theorem eq_of_isOverridable (ha : a ∈ attempts emitters model target)
    (h : a.isOverridable d = true) :
    ∃ dao ∈ model.daos, a = ⟨.implementation, target, d, .daoImpl dao⟩ := by
  obtain ⟨_, htarget, _, hjob⟩ := mem_attempts.mp ha
  obtain ⟨emitter, target', dialect, job⟩ := a
  obtain ⟨hkind, rfl⟩ : job.kind = .daoImpl ∧ dialect = d := by
    simpa [EmissionAttempt.isOverridable] using h
  obtain rfl : target' = target := htarget
  dsimp only at hjob
  rcases Emitter.mem_jobs hjob with ⟨_, rfl⟩ | ⟨_, database, _, rfl⟩ | ⟨dao, hdao, rfl⟩
  · cases hkind
  · cases hkind
  · refine ⟨dao, hdao, ?_⟩
    cases emitter with
    | implementation => rfl
    | replication => cases hkind
    | http => cases hkind

theorem isOverridable_of_run {runtime : String} {u : SourceUnit}
    (ha : a ∈ attempts emitters model target) (h : a.isOverridable d = true)
    (hrun : a.run model runtime = .ok u) : u.isOverridable d = true := by
  obtain ⟨dao, _, rfl⟩ := eq_of_isOverridable ha h
  rw [SourceUnit.isOverridable, EmissionAttempt.id_of_run hrun]
  simp [EmissionAttempt.id, EmissionAttempt.unitDialect, Emitter.isPerDialect, Job.kind]

theorem isOverridable_of_error {runtime : String} {e : EmissionError}
    (ha : a ∈ attempts emitters model target) (h : a.isOverridable d = true)
    (hrun : a.run model runtime = .error e) :
    e.isOverridable d (model.daos.map (·.name)) = true := by
  obtain ⟨dao, hdao, rfl⟩ := eq_of_isOverridable ha h
  obtain ⟨subject, cause, hjob, rfl⟩ := EmissionAttempt.run_eq_error.mp hrun
  obtain rfl : subject = dao.name := Job.blames_run _ _ _ hjob
  simp only [EmissionError.isOverridable, EmissionAttempt.unitDialect, Emitter.isPerDialect,
    if_true, beq_self_eq_true, Bool.true_and, List.contains_eq_mem, decide_eq_true_iff]
  exact List.mem_map_of_mem hdao

/-- Results that a filter drops do not count, neither for the items of a list nor for what these
become. -/
theorem filter_filterMap_map {α β γ : Type} {f : α → Option γ} {g : β → Option γ} {e : α → β}
    {p : α → Bool} {q : γ → Bool} {l : List α}
    (hkept : ∀ a ∈ l, p a = false → f a = g (e a))
    (hf : ∀ a ∈ l, p a = true → ∀ c, f a = some c → q c = false)
    (hg : ∀ a ∈ l, p a = true → ∀ c, g (e a) = some c → q c = false) :
    (l.filterMap f).filter q = ((l.map e).filterMap g).filter q := by
  rw [List.filterMap_map, List.filter_filterMap, List.filter_filterMap]
  refine List.filterMap_congr fun a ha => ?_
  cases hp : p a with
  | false => rw [hkept a ha hp, Function.comp_apply]
  | true =>
    have hnone {x : Option γ} (hx : ∀ c, x = some c → q c = false) : x.filter q = none := by
      cases x with
      | none => rfl
      | some c => simp [Option.filter, hx c rfl]
    rw [hnone (hf a ha hp), Function.comp_apply, hnone (hg a ha hp)]

theorem mem_attempts_withoutOverrides (ha : a ∈ attempts emitters model target) :
    a.withoutOverrides d ∈ attempts emitters (model.withoutOverrides d) target := by
  rw [attempts_withoutOverrides]
  exact List.mem_map_of_mem ha

end OfModel

theorem names_withoutOverrides (d : Dialect) (model : Model) :
    (model.withoutOverrides d).daos.map (·.name) = model.daos.map (·.name) := by
  rw [Model.withoutOverrides, List.map_map]
  rfl

/-- What attempts come to that are not to implement a DAO on a dialect does not depend on the
queries of the dialect, and the others are told by what they come to. -/
theorem agreesOutside_withoutOverrides (d : Dialect) (model : Model) (emitters : List Emitter)
    (target : Target) (runtime : String) :
    AgreesOutside d (model.daos.map (·.name)) (ofModel emitters model target runtime)
      (ofModel emitters (model.withoutOverrides d) target runtime) := by
  have hrun (a : EmissionAttempt) (h : a.isOverridable d = false) :
      (a.withoutOverrides d).run (model.withoutOverrides d) runtime = a.run model runtime :=
    EmissionAttempt.run_withoutOverrides d model runtime a h
  have hsame := EmissionAttempt.isOverridable_withoutOverrides d
  -- an error of an implementation of a DAO on the dialect is told by what it says
  have herror {e : EmissionError} {a : EmissionAttempt} (ha : a ∈ attempts emitters model target)
      (hp : a.isOverridable d = true)
      (h : a.run model runtime = .error e ∨
        (a.withoutOverrides d).run (model.withoutOverrides d) runtime = .error e) :
      (!e.isOverridable d (model.daos.map (·.name))) = false := by
    rw [Bool.not_eq_false']
    rcases h with h | h
    · exact isOverridable_of_error ha hp h
    · rw [← names_withoutOverrides d model]
      exact isOverridable_of_error (mem_attempts_withoutOverrides ha) ((hsame a).trans hp) h
  constructor
  case units =>
    rw [units_ofModel, units_ofModel, attempts_withoutOverrides]
    refine filter_filterMap_map (p := EmissionAttempt.isOverridable d) ?_ ?_ ?_
    · intro a _ hp
      rw [hrun a hp]
    · intro a ha hp u hu
      rw [isOverridable_of_run ha hp (Except.toOption_eq_some.mp hu), Bool.not_true]
    · intro a ha hp u hu
      rw [isOverridable_of_run (mem_attempts_withoutOverrides ha) ((hsame a).trans hp)
        (Except.toOption_eq_some.mp hu), Bool.not_true]
  case errors =>
    rw [errors_ofModel, errors_ofModel, attempts_withoutOverrides]
    refine filter_filterMap_map (p := EmissionAttempt.isOverridable d) ?_ ?_ ?_
    · intro a _ hp
      rw [hrun a hp]
    · intro a ha hp e he
      exact herror ha hp (.inl (Except.error?_eq_some.mp he))
    · intro a ha hp e he
      exact herror ha hp (.inr (Except.error?_eq_some.mp he))
  case reports =>
    rw [zip_ofModel, zip_ofModel, attempts_withoutOverrides]
    refine filter_filterMap_map (p := EmissionAttempt.isOverridable d) ?_ ?_ ?_
    · intro a _ hp
      simp only [hrun a hp, EmissionAttempt.errorDiagnostic_withoutOverrides]
    · intro a ha hp report hreport
      obtain ⟨e, he, rfl⟩ := Option.map_eq_some_iff.mp hreport
      exact herror ha hp (.inl (Except.error?_eq_some.mp he))
    · intro a ha hp report hreport
      obtain ⟨e, he, rfl⟩ := Option.map_eq_some_iff.mp hreport
      exact herror ha hp (.inr (Except.error?_eq_some.mp he))

/-- The queries of a dialect stay in their dialect. If two models differ in them only, the attempts
on a target are about the same things, in order, and those that are not to implement a DAO on the
dialect have the same answers. So the same units are generated, with the same content, and the same
errors reported, but for the implementations of DAOs on the dialect. -/
theorem ofModel_overrides {d : Dialect} {model model' : Model}
    (h : model.withoutOverrides d = model'.withoutOverrides d) (emitters : List Emitter)
    (target : Target) (runtime : String) :
    model'.daos.map (·.name) = model.daos.map (·.name) ∧
    List.Forall₂ (fun a a' => a'.emitter = a.emitter ∧ a'.dialect = a.dialect ∧ a'.id = a.id ∧
        (a.isOverridable d = false →
          Answer.ofAttempt model' runtime a' = Answer.ofAttempt model runtime a))
      (attempts emitters model target) (attempts emitters model' target) ∧
    AgreesOutside d (model.daos.map (·.name)) (ofModel emitters model target runtime)
      (ofModel emitters model' target runtime) := by
  have hnames : model'.daos.map (·.name) = model.daos.map (·.name) := by
    rw [← names_withoutOverrides d model, h, names_withoutOverrides]
  refine ⟨hnames, ?_, ?_⟩
  · have hattempts : List.Forall₂ (· = ·)
        ((attempts emitters model target).map (EmissionAttempt.withoutOverrides d))
        ((attempts emitters model' target).map (EmissionAttempt.withoutOverrides d)) := by
      rw [List.forall₂_eq_eq_eq, ← attempts_withoutOverrides, h, attempts_withoutOverrides]
    rw [List.forall₂_map_left_iff, List.forall₂_map_right_iff] at hattempts
    refine hattempts.imp fun a a' hsame => ⟨?_, ?_, ?_, fun hp => ?_⟩
    · exact (congrArg (·.emitter) hsame).symm
    · exact (congrArg (·.dialect) hsame).symm
    · rw [← EmissionAttempt.id_withoutOverrides d a, hsame, EmissionAttempt.id_withoutOverrides]
    · have hp' : a'.isOverridable d = false := by
        rw [← EmissionAttempt.isOverridable_withoutOverrides, ← hsame,
          EmissionAttempt.isOverridable_withoutOverrides, hp]
      rw [← EmissionAttempt.answer_withoutOverrides d model' runtime a' hp', ← hsame, ← h,
        EmissionAttempt.answer_withoutOverrides d model runtime a hp]
  · have hagrees := agreesOutside_withoutOverrides d model' emitters target runtime
    rw [hnames, ← h] at hagrees
    exact (agreesOutside_withoutOverrides d model emitters target runtime).trans hagrees.symm

/-- A DAO runs a query on one dialect only that asks for a parameter which its operation has not. -/
theorem ofModel_overrides_unknown :
    let op (overrides : List (Dialect × String)) : Operation :=
      { name := "find", kind := .query { sql := "SELECT 1", overrides } }
    let model (overrides : List (Dialect × String)) : Model :=
      { daos := [{ name := ⟨"db::TagDao"⟩, operations := [op overrides] }] }
    let plain := model []
    let overridden := model [(.postgres, "SELECT :id")]
    let x := ofModel Emitter.all plain .jvm "replikit"
    let y := ofModel Emitter.all overridden .jvm "replikit"
    plain.withoutOverrides .postgres = overridden.withoutOverrides .postgres ∧
      AgreesOutside .postgres [⟨"db::TagDao"⟩] x y ∧
      x.units.length = 5 ∧ y.units.length = 4 ∧ y.errors.length = 1 := by
  intro op model plain overridden x y
  have hsame : plain.withoutOverrides .postgres = overridden.withoutOverrides .postgres := by
    decide
  obtain ⟨_, _, hagrees⟩ := ofModel_overrides hsame Emitter.all .jvm "replikit"
  refine ⟨hsame, hagrees, ?_⟩
  decide +kernel

end TargetEmission

end DaoGen
