import DaoGen.Proofs.Emission.Answers

/-!
# Siblings

What is generated for a DAO depends on the DAO and on the entities of its model, but on no other
DAO. If a DAO is left out of a model, a target loses the units, errors and diagnostics of that DAO
and keeps all others as they are.

## Main definitions

* `Model.without`: a model without the DAO of a name.
* `TargetEmission.IsWithout`: an emission is what another one is without a DAO.

## Main results

* `Job.run_without`: no job reads the DAOs of its model.
* `TargetEmission.isWithout_ofModel`: the emission of a model without a DAO.
* `TargetEmission.ofModel_erase`: a failing DAO does not affect its siblings.
-/
namespace DaoGen

/-- Whether a job is for the DAO of a name. -/
def Job.isOfDao (name : QualifiedName) : Job → Bool
  | .schema | .database _ => false
  | .daoImpl dao | .replication dao | .httpEndpoint dao => dao.name == name

/-- Whether a unit is for the DAO of a name. -/
def SourceUnit.isOfDao (name : QualifiedName) (u : SourceUnit) : Bool :=
  u.id.subject == name && [UnitKind.daoImpl, .replication, .httpEndpoint].contains u.id.kind

/-- A model without the DAO of a name. Databases that list it are left as they are. -/
def Model.without (model : Model) (name : QualifiedName) : Model :=
  { model with daos := model.daos.filter (·.name != name) }

/-! ## Attempts -/

namespace Emitter

variable (emitter : Emitter) (model : Model) (name : QualifiedName)

theorem isOfDao_daoJob (dao : Dao) : (emitter.daoJob dao).isOfDao name = (dao.name == name) := by
  cases emitter <;> rfl

theorem isOfDao_of_mem_sharedJobs : ∀ job ∈ emitter.sharedJobs model, job.isOfDao name = false := by
  intro job hjob
  obtain ⟨_, rfl | ⟨database, _, rfl⟩⟩ := mem_sharedJobs hjob
  · rfl
  · rfl

theorem jobs_without :
    emitter.jobs (model.without name) = (emitter.jobs model).filter (!·.isOfDao name) := by
  have hshared : (emitter.sharedJobs model).filter (!·.isOfDao name) = emitter.sharedJobs model :=
    List.filter_eq_self.mpr fun job hjob => by
      rw [isOfDao_of_mem_sharedJobs emitter model name job hjob, Bool.not_false]
  rw [jobs, jobs, List.filter_append, hshared, List.filter_map]
  simp only [Function.comp_def, isOfDao_daoJob]
  rfl

theorem filter_jobs : (emitter.jobs model).filter (·.isOfDao name) =
    (model.daos.filter (·.name == name)).map emitter.daoJob := by
  have hshared : (emitter.sharedJobs model).filter (·.isOfDao name) = [] :=
    List.filter_eq_nil_iff.mpr fun job hjob => by
      simp [isOfDao_of_mem_sharedJobs emitter model name job hjob]
  rw [jobs, List.filter_append, hshared, List.nil_append, List.filter_map]
  simp only [Function.comp_def, isOfDao_daoJob]

end Emitter

section Attempts

variable (model : Model) (name : QualifiedName)

theorem TargetEmission.attempts_without (emitters : List Emitter) (target : Target) :
    attempts emitters (model.without name) target =
      (attempts emitters model target).filter fun a => !a.job.isOfDao name := by
  simp only [attempts, List.filter_flatMap, List.filter_map, Function.comp_def,
    Emitter.jobs_without]

/-- No job reads the DAOs of its model: entities are all that units need to know of others. -/
theorem Job.run_without (target : Target) (dialect : Dialect) (runtime : String) (job : Job) :
    job.run { model := model.without name, target, dialect, runtime } =
      job.run { model, target, dialect, runtime } :=
  rfl

theorem EmissionAttempt.run_without (runtime : String) (a : EmissionAttempt) :
    a.run (model.without name) runtime = a.run model runtime := by
  unfold run
  rw [Job.run_without]

end Attempts

/-! ## Outcomes of attempts -/

section Outcomes

variable {model : Model} {name : QualifiedName} {runtime : String} {a : EmissionAttempt}

/-- The unit of an attempt is for the DAO that the attempt is for. -/
theorem SourceUnit.isOfDao_of_run {u : SourceUnit} (h : a.run model runtime = .ok u) :
    u.isOfDao name = a.job.isOfDao name := by
  rw [isOfDao, EmissionAttempt.id_of_run h, EmissionAttempt.id]
  cases a.job <;> simp [Job.subject, Job.kind, Job.isOfDao]

/-- The error of an attempt has the name of a DAO just if the attempt is for it, unless an entity
or a database has that name too. -/
theorem EmissionAttempt.subject_of_run {emitters : List Emitter} {target : Target}
    {e : EmissionError} (hentities : ∀ entity ∈ model.entities, entity.name ≠ name)
    (hdatabases : ∀ database ∈ model.databases, database.name ≠ name)
    (ha : a ∈ TargetEmission.attempts emitters model target)
    (h : a.run model runtime = .error e) : (e.subject == name) = a.job.isOfDao name := by
  obtain ⟨subject, cause, hjob, rfl⟩ := run_eq_error.mp h
  have hblames := Job.blames_run _ _ _ hjob
  obtain ⟨_, _, _, hmem⟩ := TargetEmission.mem_attempts.mp ha
  rcases Emitter.mem_jobs hmem with ⟨_, heq⟩ | ⟨_, database, hdatabase, heq⟩ | ⟨dao, _, heq⟩
  · rw [heq] at hblames ⊢
    obtain ⟨entity, hentity, rfl⟩ := hblames
    simpa [Job.isOfDao] using hentities entity hentity
  · rw [heq] at hblames ⊢
    obtain rfl : subject = database.name := hblames
    simpa [Job.isOfDao] using hdatabases database hdatabase
  · rw [heq] at hblames ⊢
    have hsubject : subject = dao.name := by
      cases hemitter : a.emitter <;> rw [hemitter] at hblames <;> exact hblames
    subst hsubject
    cases a.emitter <;> rfl

/-- An error that has another name is reported in the same place. -/
theorem TargetEmission.errorDiagnostic_without {e : EmissionError} (h : e.subject ≠ name) :
    errorDiagnostic (model.without name) a e = errorDiagnostic model a e := by
  have hdao : (model.without name).dao? e.subject = model.dao? e.subject := by
    simp only [Model.dao?, Model.without, List.find?_filter]
    congr 1
    funext dao
    by_cases hname : dao.name = e.subject <;> simp [hname, h]
  have hlocation : locationOf (model.without name) e.subject = locationOf model e.subject := by
    unfold locationOf
    rw [hdao]
    rfl
  unfold errorDiagnostic errorLocation
  rw [hlocation]

end Outcomes

/-! ## Emissions -/

section Lists

variable {α β γ : Type}

/-- A filter goes over to results that tell what they are of. -/
theorem filterMap_filter_of_forall {f : α → Option β} {p : α → Bool} {q : β → Bool} {l : List α}
    (h : ∀ a ∈ l, ∀ b, f a = some b → q b = p a) :
    (l.filter p).filterMap f = (l.filterMap f).filter q := by
  rw [List.filterMap_filter, List.filter_filterMap]
  refine List.filterMap_congr fun a ha => ?_
  cases hf : f a with
  | none => simp
  | some b => simp [Option.filter, h a ha b hf]

/-- Results side by side with what is made from them. -/
theorem zip_filterMap_map (f : α → Option β) (g : α → β → γ) (l : List α) :
    (l.filterMap f).zip (l.filterMap fun a => (f a).map (g a)) =
      l.filterMap fun a => (f a).map fun b => (b, g a b) := by
  induction l with
  | nil => rfl
  | cons a l ih => cases hf : f a <;> simp [hf, ih]

end Lists

namespace TargetEmission

/-- An emission is what another one is without the DAO of a name. The diagnostics stand beside the
errors that they are about. -/
structure IsWithout (name : QualifiedName) (whole rest : TargetEmission) : Prop where
  units : rest.units = whole.units.filter (!·.isOfDao name)
  errors : rest.errors = whole.errors.filter (·.subject != name)
  reports : rest.errors.zip rest.diagnostics =
    (whole.errors.zip whole.diagnostics).filter (·.1.subject != name)

section OfModel

variable (emitters : List Emitter) (model : Model) (target : Target) (runtime : String)

theorem zip_ofModel :
    (ofModel emitters model target runtime).errors.zip
        (ofModel emitters model target runtime).diagnostics =
      (attempts emitters model target).filterMap fun a =>
        (a.run model runtime).error?.map fun e => (e, errorDiagnostic model a e) := by
  rw [errors_ofModel, diagnostics_ofModel, zip_filterMap_map]

/-- There is a diagnostic for each error. -/
theorem length_diagnostics_ofModel :
    (ofModel emitters model target runtime).diagnostics.length =
      (ofModel emitters model target runtime).errors.length := by
  simpa using congrArg List.length (map_message_diagnostics emitters model target runtime)

variable {model} {name : QualifiedName}

/-- Without a DAO a target loses what was for that DAO. -/
theorem isWithout_ofModel (hentities : ∀ entity ∈ model.entities, entity.name ≠ name)
    (hdatabases : ∀ database ∈ model.databases, database.name ≠ name) :
    IsWithout name (ofModel emitters model target runtime)
      (ofModel emitters (model.without name) target runtime) where
  units := by
    rw [units_ofModel, units_ofModel, attempts_without]
    simp only [EmissionAttempt.run_without]
    refine filterMap_filter_of_forall fun a _ u hu => ?_
    rw [SourceUnit.isOfDao_of_run (Except.toOption_eq_some.mp hu)]
  errors := by
    rw [errors_ofModel, errors_ofModel, attempts_without]
    simp only [EmissionAttempt.run_without]
    refine filterMap_filter_of_forall fun a ha e he => ?_
    rw [bne, EmissionAttempt.subject_of_run hentities hdatabases ha (Except.error?_eq_some.mp he)]
  reports := by
    rw [zip_ofModel, zip_ofModel, attempts_without]
    simp only [EmissionAttempt.run_without]
    have hsubject {a : EmissionAttempt} (ha : a ∈ attempts emitters model target)
        {e : EmissionError} (he : (a.run model runtime).error? = some e) :
        (e.subject == name) = a.job.isOfDao name :=
      EmissionAttempt.subject_of_run hentities hdatabases ha (Except.error?_eq_some.mp he)
    -- the errors that stay have other names, so they are reported as before
    have hreport : ∀ a ∈ (attempts emitters model target).filter (!·.job.isOfDao name),
        ((a.run model runtime).error?.map fun e => (e, errorDiagnostic (model.without name) a e)) =
          (a.run model runtime).error?.map fun e => (e, errorDiagnostic model a e) := by
      intro a ha
      obtain ⟨hmem, hother⟩ := List.mem_filter.mp ha
      cases he : (a.run model runtime).error? with
      | none => rfl
      | some e =>
        have hne : e.subject ≠ name := by
          simpa [← hsubject hmem he] using hother
        rw [Option.map_some, Option.map_some, errorDiagnostic_without hne]
    rw [List.filterMap_congr hreport]
    refine filterMap_filter_of_forall fun a ha report hmade => ?_
    obtain ⟨e, he, rfl⟩ := Option.map_eq_some_iff.mp hmade
    rw [bne, hsubject ha he]

end OfModel

/-! ## One DAO -/

/-- All attempts for one DAO on a target. -/
def daoAttempts (emitters : List Emitter) (dao : Dao) (target : Target) : List EmissionAttempt :=
  (emitters.filter fun emitter => target.runs emitter.pass).flatMap fun emitter =>
    (emitter.dialects target).map fun dialect =>
      { emitter, target, dialect, job := emitter.daoJob dao }

section OfModelErase

variable {model : Model} {d : Dao}

/-- A DAO is told by its name. -/
theorem name_beq (hnames : (model.daos.map (·.name)).Nodup) (hd : d ∈ model.daos) {dao : Dao}
    (hdao : dao ∈ model.daos) : (dao.name == d.name) = (dao == d) := by
  rw [Bool.eq_iff_iff, beq_iff_eq, beq_iff_eq]
  exact ⟨List.inj_on_of_nodup_map hnames hdao hd, congrArg Dao.name⟩

theorem filter_name (hnames : (model.daos.map (·.name)).Nodup) (hd : d ∈ model.daos) :
    model.daos.filter (·.name == d.name) = [d] := by
  rw [List.filter_congr fun dao => name_beq hnames hd, List.filter_beq,
    List.count_eq_one_of_mem (hnames.of_map _) hd]
  rfl

theorem without_eq_erase (hnames : (model.daos.map (·.name)).Nodup) (hd : d ∈ model.daos) :
    model.without d.name = { model with daos := model.daos.erase d } := by
  have hne : ∀ dao ∈ model.daos, (dao.name != d.name) = (dao != d) := by
    intro dao hdao
    rw [bne, bne, name_beq hnames hd hdao]
  rw [Model.without, List.filter_congr hne, (hnames.of_map _).erase_eq_filter]

/-- A DAO of the same name in the same place is left out alike. -/
theorem without_replace {d' : Dao} (h : d'.name = d.name) :
    ({ model with daos := model.daos.replace d d' } : Model).without d.name =
      model.without d.name := by
  have hdaos (daos : List Dao) : (daos.replace d d').filter (·.name != d.name) =
      daos.filter (·.name != d.name) := by
    induction daos with
    | nil => rfl
    | cons dao daos ih =>
      by_cases heq : d = dao
      · subst heq
        simp [h]
      · simp [List.replace_cons, beq_false_of_ne heq, List.filter_cons, ih]
  rw [Model.without, Model.without, hdaos]

/-- The attempts that are for a DAO. -/
theorem filter_attempts (emitters : List Emitter) (target : Target)
    (hnames : (model.daos.map (·.name)).Nodup) (hd : d ∈ model.daos) :
    (attempts emitters model target).filter (·.job.isOfDao d.name) =
      daoAttempts emitters d target := by
  simp only [attempts, daoAttempts, List.filter_flatMap, List.filter_map, Function.comp_def,
    Emitter.filter_jobs, filter_name hnames hd, List.map_cons, List.map_nil, ← List.map_eq_flatMap]

/-- A failing DAO does not affect its siblings. Without it a target has the same other units,
errors and diagnostics, in the same order, and the errors that are gone are those of the attempts
for it. Nothing else changes either with another DAO of its name in its place. -/
theorem ofModel_erase (emitters : List Emitter) (target : Target) (runtime : String)
    (hnames : (model.daos.map (·.name)).Nodup)
    (hentities : ∀ dao ∈ model.daos, ∀ entity ∈ model.entities, entity.name ≠ dao.name)
    (hdatabases : ∀ dao ∈ model.daos, ∀ database ∈ model.databases, database.name ≠ dao.name)
    (hd : d ∈ model.daos) :
    let whole := ofModel emitters model target runtime
    let rest := ofModel emitters { model with daos := model.daos.erase d } target runtime
    IsWithout d.name whole rest ∧
    whole.diagnostics.length = whole.errors.length ∧
    rest.diagnostics.length = rest.errors.length ∧
    (whole.errors.filter (·.subject == d.name) =
      (daoAttempts emitters d target).filterMap fun a => (a.run model runtime).error?) ∧
    ∀ d' : Dao, d'.name = d.name →
      IsWithout d.name
        (ofModel emitters { model with daos := model.daos.replace d d' } target runtime) rest := by
  intro whole rest
  have hrest : rest = ofModel emitters (model.without d.name) target runtime := by
    rw [without_eq_erase hnames hd]
  refine ⟨?_, length_diagnostics_ofModel _ _ _ _, length_diagnostics_ofModel _ _ _ _, ?_, ?_⟩
  · rw [hrest]
    exact isWithout_ofModel emitters target runtime (hentities d hd) (hdatabases d hd)
  · rw [← filter_attempts emitters target hnames hd, errors_ofModel]
    refine (filterMap_filter_of_forall fun a ha e he => ?_).symm
    exact EmissionAttempt.subject_of_run (hentities d hd) (hdatabases d hd) ha
      (Except.error?_eq_some.mp he)
  · intro d' hname
    rw [hrest, ← without_replace hname]
    exact isWithout_ofModel emitters target runtime (hentities d hd) (hdatabases d hd)

/-- Of two DAOs the first has no name that generated code can have. -/
theorem ofModel_erase_unnamed :
    let unnamed : Dao := { name := ⟨"db::1Dao"⟩, operations := [] }
    let model : Model :=
      { loneEntity with daos := [unnamed, { name := ⟨"db::TagDao"⟩, operations := [] }] }
    let whole := ofModel Emitter.all model .mobile "replikit"
    let siblings : Model := { model with daos := model.daos.erase unnamed }
    let rest := ofModel Emitter.all siblings .mobile "replikit"
    IsWithout unnamed.name whole rest ∧ whole.errors.length = 2 ∧ rest.units.length = 3 := by
  intro unnamed model whole siblings rest
  obtain ⟨hrest, _⟩ := @ofModel_erase model unnamed Emitter.all .mobile "replikit"
    (by decide) (by decide) (by decide) List.mem_cons_self
  refine ⟨hrest, ?_⟩
  decide +kernel

end OfModelErase

end TargetEmission

end DaoGen
