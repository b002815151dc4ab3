import DaoGen.Outcome
import DaoGen.Proofs.Emission.Attempts
import DaoGen.Proofs.Model.Closed
import Mathlib.Data.List.Nodup

/-!
# Units of a pass

A pass keeps the first unit of each identity. The identity of a unit is that of the attempt that
gave it, so every unit is one that its model has.
-/
namespace DaoGen

namespace Outcome

/-- Kept units have different identities, none of which was seen before. -/
theorem distinctAfter_spec (seen : List UnitId) (units : List SourceUnit) :
    ((distinctAfter seen units).map (·.id)).Nodup ∧
      ∀ u ∈ distinctAfter seen units, u ∈ units ∧ u.id ∉ seen := by
  induction units generalizing seen with
  | nil => exact ⟨List.nodup_nil, nofun⟩
  | cons u rest ih =>
    unfold distinctAfter
    split
    · obtain ⟨hnodup, hmem⟩ := ih seen
      exact ⟨hnodup, fun v hv => ⟨List.mem_cons_of_mem u (hmem v hv).1, (hmem v hv).2⟩⟩
    · next hnew =>
      obtain ⟨hnodup, hmem⟩ := ih (u.id :: seen)
      refine ⟨?_, fun v hv => ?_⟩
      · rw [List.map_cons, List.nodup_cons]
        refine ⟨fun hin => ?_, hnodup⟩
        obtain ⟨v, hv, hid⟩ := List.mem_map.mp hin
        exact (hmem v hv).2 (hid ▸ List.mem_cons_self)
      · rcases List.mem_cons.mp hv with rfl | hv
        · exact ⟨List.mem_cons_self, by simpa using hnew⟩
        · obtain ⟨hrest, hseen⟩ := hmem v hv
          exact ⟨List.mem_cons_of_mem u hrest, fun h => hseen (List.mem_cons_of_mem u.id h)⟩

/-- A unit is kept if no other one has its identity. -/
theorem mem_distinctAfter {seen : List UnitId} {units : List SourceUnit} {u : SourceUnit}
    (hu : u ∈ units) (hseen : u.id ∉ seen) (hunique : ∀ v ∈ units, v.id = u.id → v = u) :
    u ∈ distinctAfter seen units := by
  induction units generalizing seen with
  | nil => cases hu
  | cons v rest ih =>
    obtain ⟨hv, hrest⟩ := List.forall_mem_cons.mp hunique
    unfold distinctAfter
    split
    · next hold =>
      have hne : u ≠ v := by
        rintro rfl
        exact hseen (by simpa using hold)
      exact ih ((List.mem_cons.mp hu).resolve_left hne) hseen hrest
    · by_cases hid : v.id = u.id
      · rw [hv hid]
        exact List.mem_cons_self
      · have hne : u ≠ v := fun h => hid (h ▸ rfl)
        refine List.mem_cons_of_mem v (ih ((List.mem_cons.mp hu).resolve_left hne) ?_ hrest)
        simp [hseen, Ne.symm hid]

/-- No target has an error if a pass succeeds. -/
theorem errors_of_isSuccess {e : Extraction} {tracker : Tracker} {emissions : List TargetEmission}
    (h : (ofEmissions e tracker emissions).isSuccess = true) :
    ∀ emission ∈ emissions, emission.errors = [] := by
  have hstate : ((emissions.flatMap (·.errors)).isEmpty &&
      !(tracker.reportAll (emissions.flatMap (·.diagnostics))).failed) = true := by
    simpa [isSuccess, ofEmissions] using h
  rw [Bool.and_eq_true, List.isEmpty_iff, List.flatMap_eq_nil_iff] at hstate
  exact hstate.1

end Outcome

/-! ## Identities -/

theorem Job.kind_of_run {ctx : Emission.Context} {job : Job} {code : UnitCode}
    (h : job.run ctx = .ok code) : code.kind = job.kind := by
  cases job <;> obtain ⟨_, _, rfl⟩ := Except.map_eq_ok.mp h <;> rfl

namespace EmissionAttempt

/-- The identity of the unit that is to be generated. -/
def id (a : EmissionAttempt) : UnitId := ⟨a.target, a.unitDialect, a.job.subject, a.job.kind⟩

theorem id_of_run {model : Model} {runtime : String} {a : EmissionAttempt} {u : SourceUnit}
    (h : a.run model runtime = .ok u) : u.id = a.id := by
  obtain ⟨code, hcode, rfl⟩ := run_eq_ok.mp h
  rw [SourceUnit.id, Job.kind_of_run hcode, id]

end EmissionAttempt

namespace Emitter

theorem subject_daoJob (emitter : Emitter) (dao : Dao) :
    (emitter.daoJob dao).subject = dao.name := by
  cases emitter <;> rfl

/-- The kind and the subject of a job tell what it is about, and which emitter it is of. -/
theorem eq_of_mem_jobs {model : Model} (hclosed : model.Closed) {emitter emitter' : Emitter}
    {job job' : Job} (h : job ∈ emitter.jobs model) (h' : job' ∈ emitter'.jobs model)
    (hkind : job.kind = job'.kind) (hsubject : job.subject = job'.subject) :
    emitter = emitter' ∧ job = job' := by
  rcases mem_jobs h with ⟨rfl, rfl⟩ | ⟨rfl, db, hdb, rfl⟩ | ⟨dao, hdao, rfl⟩ <;>
    rcases mem_jobs h' with ⟨rfl, rfl⟩ | ⟨rfl, db', hdb', rfl⟩ | ⟨dao', hdao', rfl⟩
  case inl.inl => exact ⟨rfl, rfl⟩
  case inr.inl.inr.inl =>
    obtain rfl : db = db' :=
      List.inj_on_of_nodup_map hclosed.database_names hdb hdb' (congrArg (·.simple) hsubject)
    exact ⟨rfl, rfl⟩
  case inr.inr.inr.inr =>
    rw [subject_daoJob, subject_daoJob] at hsubject
    obtain rfl : dao = dao' :=
      List.inj_on_of_nodup_map hclosed.dao_names hdao hdao' (congrArg (·.simple) hsubject)
    cases emitter <;> cases emitter' <;> first | exact ⟨rfl, rfl⟩ | cases hkind
  -- jobs of different kinds
  case inl.inr.inl => cases hkind
  case inr.inl.inl => cases hkind
  case inl.inr.inr => cases emitter' <;> cases hkind
  case inr.inl.inr.inr => cases emitter' <;> cases hkind
  case inr.inr.inl => cases emitter <;> cases hkind
  case inr.inr.inr.inl => cases emitter <;> cases hkind

end Emitter

/-- Attempts of a closed model with the same identity are the same. -/
theorem EmissionAttempt.eq_of_id_eq {emitters : List Emitter} {model : Model}
    (hclosed : model.Closed) {target target' : Target} {a b : EmissionAttempt}
    (ha : a ∈ TargetEmission.attempts emitters model target)
    (hb : b ∈ TargetEmission.attempts emitters model target') (hid : a.id = b.id) : a = b := by
  obtain ⟨_, hatarget, hadialect, hajob⟩ := TargetEmission.mem_attempts.mp ha
  obtain ⟨_, hbtarget, hbdialect, hbjob⟩ := TargetEmission.mem_attempts.mp hb
  obtain ⟨emitter, _, dialect, job⟩ := a
  obtain ⟨emitter', _, dialect', job'⟩ := b
  simp only [EmissionAttempt.id, UnitId.mk.injEq] at *
  obtain ⟨htarget, hdialect, hsubject, hkind⟩ := hid
  obtain ⟨rfl, rfl⟩ := Emitter.eq_of_mem_jobs hclosed hajob hbjob hkind hsubject
  subst hatarget hbtarget htarget
  simp only [EmissionAttempt.unitDialect] at hdialect
  simp only [Emitter.dialects] at hadialect hbdialect
  -- the units for all dialects are made with the primary one
  have hsame : dialect = dialect' := by
    cases hper : emitter.isPerDialect with
    | true => simpa [hper] using hdialect
    | false =>
      simp only [hper, Bool.false_eq_true, if_false, List.mem_singleton] at hadialect hbdialect
      rw [hadialect, hbdialect]
  rw [hsame]

/-- The identities of the units that can be generated for a model. Only the units of replication
are for all dialects. -/
inductive Model.HasUnit (model : Model) (target : Target) : UnitId → Prop where
  | schema (dialect : Dialect) : model.HasUnit target ⟨target, some dialect, ⟨"schema"⟩, .schema⟩
  | database (dialect : Dialect) {database : Database} (h : database ∈ model.databases) :
    model.HasUnit target ⟨target, some dialect, database.name, .database⟩
  | daoImpl (dialect : Dialect) {dao : Dao} (h : dao ∈ model.daos) :
    model.HasUnit target ⟨target, some dialect, dao.name, .daoImpl⟩
  | replication {dao : Dao} (h : dao ∈ model.daos) :
    model.HasUnit target ⟨target, none, dao.name, .replication⟩
  | httpEndpoint (dialect : Dialect) {dao : Dao} (h : dao ∈ model.daos) :
    model.HasUnit target ⟨target, some dialect, dao.name, .httpEndpoint⟩

theorem EmissionAttempt.hasUnit {emitters : List Emitter} {model : Model} {target : Target}
    {a : EmissionAttempt} (h : a ∈ TargetEmission.attempts emitters model target) :
    model.HasUnit target a.id := by
  obtain ⟨_, htarget, _, hjob⟩ := TargetEmission.mem_attempts.mp h
  obtain ⟨emitter, target', dialect, job⟩ := a
  obtain rfl : target' = target := htarget
  rcases Emitter.mem_jobs hjob with ⟨he, hj⟩ | ⟨he, database, hmem, hj⟩ | ⟨dao, hmem, hj⟩
  · cases he
    cases hj
    exact .schema dialect
  · cases he
    cases hj
    exact .database dialect hmem
  · dsimp only at hj
    subst hj
    cases emitter with
    | implementation => exact .daoImpl dialect hmem
    | replication => exact .replication hmem
    | http => exact .httpEndpoint dialect hmem

/-- The units of several targets are results of attempts on them. -/
theorem TargetEmission.exists_attempt {emitters : List Emitter} {model : Model} {runtime : String}
    {targets : List Target} {u : SourceUnit}
    (hu : u ∈ (targets.map fun target => ofModel emitters model target runtime).flatMap (·.units)) :
    ∃ target ∈ targets, ∃ a ∈ attempts emitters model target, a.run model runtime = .ok u := by
  obtain ⟨emission, hemission, hunit⟩ := List.mem_flatMap.mp hu
  obtain ⟨target, htarget, rfl⟩ := List.mem_map.mp hemission
  rw [units_ofModel] at hunit
  obtain ⟨a, ha, hrun⟩ := List.mem_filterMap.mp hunit
  exact ⟨target, htarget, a, ha, Except.toOption_eq_some.mp hrun⟩

/-- Every unit of a pass is the result of an attempt on one of its targets. -/
theorem exists_attempt_of_mem_units {options : Options} {emitters : List Emitter}
    {source : DeclarationSource} {u : SourceUnit}
    (hu : u ∈ (runPass options emitters source).units) :
    ∃ target ∈ options.targets,
      ∃ a ∈ TargetEmission.attempts emitters (Extraction.ofSource source).model target,
        a.run (Extraction.ofSource source).model options.runtime = .ok u := by
  rw [runPass_eq] at hu
  dsimp only at hu
  split at hu
  · cases hu
  · exact TargetEmission.exists_attempt ((Outcome.distinctAfter_spec [] _).2 u hu).1

/-- What an attempt gives is kept: a unit with the same identity is from the same attempt. -/
theorem TargetEmission.mem_distinct {emitters : List Emitter} {model : Model}
    (hclosed : model.Closed) {runtime : String} {targets : List Target} {target : Target}
    (htarget : target ∈ targets) {a : EmissionAttempt} (ha : a ∈ attempts emitters model target)
    {u : SourceUnit} (hrun : a.run model runtime = .ok u) :
    u ∈ Outcome.distinct
      ((targets.map fun target => ofModel emitters model target runtime).flatMap (·.units)) := by
  refine Outcome.mem_distinctAfter ?_ (List.not_mem_nil) fun v hv hid => ?_
  · refine List.mem_flatMap.mpr ⟨_, List.mem_map_of_mem htarget, ?_⟩
    rw [units_ofModel]
    exact List.mem_filterMap.mpr ⟨a, ha, Except.toOption_eq_some.mpr hrun⟩
  · obtain ⟨_, _, b, hb, hrun'⟩ := exists_attempt hv
    have hids := hid.symm.trans (EmissionAttempt.id_of_run hrun')
    obtain rfl := EmissionAttempt.eq_of_id_eq hclosed ha hb
      ((EmissionAttempt.id_of_run hrun).symm.trans hids)
    exact Except.ok.inj (hrun'.symm.trans hrun)

/-- A pass that succeeds has the unit of every attempt. -/
theorem exists_unit_of_isSuccess {options : Options} {emitters : List Emitter}
    {source : DeclarationSource} (hsuccess : (runPass options emitters source).isSuccess = true)
    {target : Target} (htarget : target ∈ options.targets) {a : EmissionAttempt}
    (ha : a ∈ TargetEmission.attempts emitters (Extraction.ofSource source).model target) :
    ∃ u ∈ (runPass options emitters source).units,
      a.run (Extraction.ofSource source).model options.runtime = .ok u := by
  rw [runPass_eq] at hsuccess ⊢
  dsimp only at hsuccess ⊢
  split at hsuccess
  · cases hsuccess
  next hvalid =>
  rw [if_neg hvalid]
  cases hrun : a.run (Extraction.ofSource source).model options.runtime with
  | ok u => exact ⟨u, TargetEmission.mem_distinct (.ofSource source) htarget ha hrun, rfl⟩
  | error error =>
    have hemission := List.mem_map_of_mem (f := fun target => TargetEmission.ofModel emitters
      (Extraction.ofSource source).model target options.runtime) htarget
    have herrors := Outcome.errors_of_isSuccess hsuccess _ hemission
    rw [TargetEmission.errors_ofModel, List.filterMap_eq_nil_iff] at herrors
    exact absurd (Except.error?_eq_some.mpr hrun) (by simp [herrors a ha])

/-- The units of a pass are distinct, and units of the models of its source. -/
theorem runPass_units (options : Options) (emitters : List Emitter) (source : DeclarationSource) :
    ((runPass options emitters source).units.map (·.id)).Nodup ∧
      ∀ u ∈ (runPass options emitters source).units, ∃ target ∈ options.targets,
        (Extraction.ofSource source).model.HasUnit target u.id := by
  constructor
  · rw [runPass_eq]
    dsimp only
    split
    · exact List.nodup_nil
    · exact (Outcome.distinctAfter_spec [] _).1
  · intro u hu
    obtain ⟨target, htarget, a, ha, hrun⟩ := exists_attempt_of_mem_units hu
    exact ⟨target, htarget, EmissionAttempt.id_of_run hrun ▸ EmissionAttempt.hasUnit ha⟩

end DaoGen
