import DaoGen.Proofs.Pass

/-!
# Answers to attempts

The emission of a target answers every attempt once, in order: with a unit of the identity that was
asked for, or with an error that tells which attempt it is of, and a diagnostic about the error.

## Main definitions

* `Answer`, `Answer.IsTo`: what comes of an attempt, and which answers fit an attempt.
* `TargetEmission.Answers`: an emission holds the answers to a list of attempts and nothing else.

## Main results

* `TargetEmission.ofModel_answers`: the attempts that the emission of a target answers.
-/
namespace DaoGen

/-- What comes of an attempt. -/
inductive Answer where
  | unit (u : SourceUnit)
  | failure (error : EmissionError) (diagnostic : Diagnostic)

/-- What a job can fail for: its own subject, or an entity whose table is to be created. -/
def Job.Blames (model : Model) (subject : QualifiedName) : Job → Prop
  | .schema => ∃ entity ∈ model.entities, subject = entity.name
  | .database d => subject = d.name
  | .daoImpl dao | .replication dao | .httpEndpoint dao => subject = dao.name

namespace Answer

def unit? : Answer → Option SourceUnit
  | .unit u => some u
  | .failure _ _ => none

def error? : Answer → Option EmissionError
  | .unit _ => none
  | .failure error _ => some error

def diagnostic? : Answer → Option Diagnostic
  | .unit _ => none
  | .failure _ diagnostic => some diagnostic

/-- An answer fits an attempt: the unit has its identity, or the error has its emitter, target,
dialect and subject and is reported. -/
inductive IsTo (model : Model) (a : EmissionAttempt) : Answer → Prop
  | unit {u : SourceUnit} (id : u.id = a.id) : IsTo model a (.unit u)
  | failure {error : EmissionError} (emitter : error.emitter = a.emitter.name)
      (target : error.target = a.target) (dialect : error.dialect = a.unitDialect)
      (subject : a.job.Blames model error.subject) :
      IsTo model a
        (.failure error (.error error.message (TargetEmission.errorLocation model a error)))

/-- The answer that the outcome of an attempt gives. -/
def ofAttempt (model : Model) (runtime : String) (a : EmissionAttempt) : Answer :=
  match a.run model runtime with
  | .ok u => .unit u
  | .error error => .failure error (TargetEmission.errorDiagnostic model a error)

section OfAttempt

variable (model : Model) (runtime : String) (a : EmissionAttempt)

theorem unit?_ofAttempt : (ofAttempt model runtime a).unit? = (a.run model runtime).toOption := by
  unfold ofAttempt
  cases a.run model runtime <;> rfl

theorem error?_ofAttempt : (ofAttempt model runtime a).error? = (a.run model runtime).error? := by
  unfold ofAttempt
  cases a.run model runtime <;> rfl

theorem diagnostic?_ofAttempt : (ofAttempt model runtime a).diagnostic? =
    (a.run model runtime).error?.map (TargetEmission.errorDiagnostic model a) := by
  unfold ofAttempt
  cases a.run model runtime <;> rfl

end OfAttempt

end Answer

/-! ## Failures -/

/-- An entity keeps a schema from being generated. -/
theorem Emission.Schema.blames_modulesOf (dialect : Dialect) (entities : List Entity) :
    (modulesOf dialect entities).FailsOnly fun failure =>
      ∃ entity ∈ entities, failure.1 = entity.name := by
  induction entities with
  | nil => exact .ok []
  | cons entity rest ih =>
    have hhere (cause : EmitCause) : ∃ e ∈ entity :: rest, entity.name = e.name :=
      ⟨entity, List.mem_cons_self, rfl⟩
    unfold modulesOf
    refine .bind (.of_mapError hhere) fun m => .bind (fun failure h => ?_) fun _ => .pure _
    obtain ⟨later, hmem, hname⟩ := ih failure h
    exact ⟨later, List.mem_cons_of_mem entity hmem, hname⟩

theorem Job.blames_run (ctx : Emission.Context) (job : Job) :
    (job.run ctx).FailsOnly fun failure => job.Blames ctx.model failure.1 := by
  have hown {α : Type} (x : Except EmitCause α) (subject : QualifiedName) :
      (x.mapError (subject, ·)).FailsOnly fun failure => failure.1 = subject :=
    .of_mapError fun _ => rfl
  cases job with
  | schema => exact ((Emission.Schema.blames_modulesOf _ _).bind fun _ => .pure _).map _
  | database d => exact (hown _ _).map _
  | daoImpl dao => exact (hown _ _).map _
  | replication dao => exact (hown _ _).map _
  | httpEndpoint dao => exact (hown _ _).map _

/-- The outcome of an attempt answers it. -/
theorem Answer.isTo_ofAttempt (model : Model) (runtime : String) (a : EmissionAttempt) :
    (ofAttempt model runtime a).IsTo model a := by
  unfold ofAttempt
  cases hrun : a.run model runtime with
  | ok u => exact .unit (EmissionAttempt.id_of_run hrun)
  | error error =>
    obtain ⟨subject, cause, hjob, rfl⟩ := EmissionAttempt.run_eq_error.mp hrun
    exact .failure rfl rfl rfl (Job.blames_run _ a.job _ hjob)

/-! ## Emissions -/

namespace TargetEmission

/-- An emission holds one answer to each attempt, in order, and nothing else. -/
def Answers (model : Model) (as : List EmissionAttempt) (emission : TargetEmission) : Prop :=
  ∃ answers : List Answer, List.Forall₂ (fun a answer => answer.IsTo model a) as answers ∧
    emission.units = answers.filterMap Answer.unit? ∧
    emission.errors = answers.filterMap Answer.error? ∧
    emission.diagnostics = answers.filterMap Answer.diagnostic?

/-- There are as many units and errors as attempts. -/
theorem Answers.length_eq {model : Model} {as : List EmissionAttempt} {emission : TargetEmission}
    (h : emission.Answers model as) :
    emission.units.length + emission.errors.length = as.length := by
  obtain ⟨answers, hanswers, hunits, herrors, _⟩ := h
  rw [hunits, herrors, hanswers.length_eq]
  clear * -
  induction answers with
  | nil => rfl
  | cons answer rest ih =>
    cases answer with
    | unit u => simp [Answer.unit?, Answer.error?, List.filterMap_cons]; omega
    | failure error diagnostic =>
      simp [Answer.unit?, Answer.error?, List.filterMap_cons]; omega

/-- The schema of a model that has entities, and its databases. -/
def sharedJobs (model : Model) : List Job :=
  (if model.entities = [] then [] else [.schema]) ++ model.databases.map .database

/-- For each emitter that runs on the target and each dialect that it generates units for, the
attempts at its shared jobs, and then at the unit of each DAO. -/
def attemptsWith (shared : Emitter → List Job) (emitters : List Emitter) (model : Model)
    (target : Target) : List EmissionAttempt :=
  (emitters.filter fun emitter => target.runs emitter.pass).flatMap fun emitter =>
    (if emitter.isPerDialect then target.dialects else [target.primary]).flatMap fun dialect =>
      (shared emitter ++ model.daos.map emitter.daoJob).map fun job =>
        { emitter, target, dialect, job }

theorem attempts_eq_attemptsWith (emitters : List Emitter) (model : Model) (target : Target) :
    attempts emitters model target =
      attemptsWith (fun emitter => if emitter = .implementation then sharedJobs model else [])
        emitters model target := by
  have hshared (emitter : Emitter) : emitter.sharedJobs model =
      if emitter = .implementation then sharedJobs model else [] := by
    cases emitter with
    | implementation => simp [Emitter.sharedJobs, sharedJobs]
    | replication => rfl
    | http => rfl
  simp only [attempts, attemptsWith, Emitter.dialects, Emitter.jobs, hshared]

/-- The emission of a target answers its attempts: for each emitter that runs there, and each
dialect that it generates units for, the schema if there is an entity and the databases, which only
the emitter of implementations has, and then each DAO. -/
theorem ofModel_answers (emitters : List Emitter) (model : Model) (target : Target)
    (runtime : String) :
    (ofModel emitters model target runtime).Answers model
      (attemptsWith (fun emitter => if emitter = .implementation then sharedJobs model else [])
        emitters model target) := by
  rw [← attempts_eq_attemptsWith]
  refine ⟨(attempts emitters model target).map (Answer.ofAttempt model runtime), ?_, ?_, ?_, ?_⟩
  · rw [List.forall₂_map_right_iff, List.forall₂_same]
    exact fun a _ => Answer.isTo_ofAttempt model runtime a
  · rw [units_ofModel, List.filterMap_map]
    congr 1
    funext a
    exact (Answer.unit?_ofAttempt model runtime a).symm
  · rw [errors_ofModel, List.filterMap_map]
    congr 1
    funext a
    exact (Answer.error?_ofAttempt model runtime a).symm
  · rw [diagnostics_ofModel, List.filterMap_map]
    congr 1
    funext a
    exact (Answer.diagnostic?_ofAttempt model runtime a).symm

/-- A model of one entity. -/
def loneEntity : Model where
  entities := [{
    name := ⟨"db::Tag"⟩
    table := "Tag"
    fields := [{ name := "id", ty := .named "i64", primaryKey := true }] }]

/-- The schema and the databases are not attempted by other emitters: where only replication runs,
an entity alone leads to nothing. -/
theorem not_answers_replication :
    ¬ (ofModel [.replication] loneEntity .mobile "replikit").Answers loneEntity
      (attemptsWith (fun _ => sharedJobs loneEntity) [.replication] loneEntity .mobile) := by
  intro h
  cases h.length_eq

end TargetEmission

end DaoGen
