import DaoGen.Emission
import DaoGen.Proofs.Failure

/-!
# Attempts

The emission of a target takes one attempt after another. `TargetEmission.foldl_take` is the one
induction over them: every attempt gives one unit, or one error and a diagnostic about it, in the
order of the attempts.
-/
namespace DaoGen

namespace Emitter

/-- Only the emitter of implementations has shared units. -/
theorem mem_sharedJobs {emitter : Emitter} {model : Model} {job : Job}
    (h : job ∈ emitter.sharedJobs model) :
    emitter = .implementation ∧
      (job = .schema ∨ ∃ database ∈ model.databases, job = .database database) := by
  cases emitter with
  | implementation =>
    refine ⟨rfl, ?_⟩
    rcases List.mem_append.mp h with hschema | hdatabase
    · split at hschema
      · cases hschema
      · exact .inl (List.mem_singleton.mp hschema)
    · obtain ⟨database, hmem, rfl⟩ := List.mem_map.mp hdatabase
      exact .inr ⟨database, hmem, rfl⟩
  | replication => cases h
  | http => cases h

/-- The jobs of an emitter are about the models. -/
theorem mem_jobs {emitter : Emitter} {model : Model} {job : Job} (h : job ∈ emitter.jobs model) :
    (emitter = .implementation ∧ job = .schema) ∨
      (emitter = .implementation ∧ ∃ database ∈ model.databases, job = .database database) ∨
      ∃ dao ∈ model.daos, job = emitter.daoJob dao := by
  rcases List.mem_append.mp h with hshared | hdao
  · obtain ⟨hemitter, hschema | hdatabase⟩ := mem_sharedJobs hshared
    · exact .inl ⟨hemitter, hschema⟩
    · exact .inr (.inl ⟨hemitter, hdatabase⟩)
  · obtain ⟨dao, hmem, rfl⟩ := List.mem_map.mp hdao
    exact .inr (.inr ⟨dao, hmem, rfl⟩)

end Emitter

namespace TargetEmission

theorem mem_attempts {emitters : List Emitter} {model : Model} {target : Target}
    {a : EmissionAttempt} :
    a ∈ attempts emitters model target ↔
      (a.emitter ∈ emitters ∧ target.runs a.emitter.pass = true) ∧ a.target = target ∧
        a.dialect ∈ a.emitter.dialects target ∧ a.job ∈ a.emitter.jobs model := by
  simp only [attempts, List.mem_flatMap, List.mem_filter, List.mem_map]
  constructor
  · rintro ⟨emitter, hemitter, dialect, hdialect, job, hjob, rfl⟩
    exact ⟨hemitter, rfl, hdialect, hjob⟩
  · rintro ⟨hemitter, htarget, hdialect, hjob⟩
    exact ⟨a.emitter, hemitter, a.dialect, hdialect, a.job, hjob, htarget ▸ rfl⟩

/-- Units, errors and diagnostics are put to those there are, in the order of the attempts. -/
theorem foldl_take (model : Model) (runtime : String) (as : List EmissionAttempt)
    (emission : TargetEmission) :
    as.foldl (take model runtime) emission = {
      units := emission.units ++ as.filterMap fun a => (a.run model runtime).toOption
      errors := emission.errors ++ as.filterMap fun a => (a.run model runtime).error?
      diagnostics := emission.diagnostics ++
        as.filterMap fun a => (a.run model runtime).error?.map (errorDiagnostic model a) } := by
  induction as generalizing emission with
  | nil => simp
  | cons a as ih =>
    rw [List.foldl_cons, ih, take]
    cases hrun : a.run model runtime <;>
      simp [hrun, Except.toOption, Except.error?]

section OfModel

variable (emitters : List Emitter) (model : Model) (target : Target) (runtime : String)

theorem units_ofModel :
    (ofModel emitters model target runtime).units =
      (attempts emitters model target).filterMap fun a => (a.run model runtime).toOption := by
  rw [ofModel, foldl_take]
  rfl

theorem errors_ofModel :
    (ofModel emitters model target runtime).errors =
      (attempts emitters model target).filterMap fun a => (a.run model runtime).error? := by
  rw [ofModel, foldl_take]
  rfl

theorem diagnostics_ofModel :
    (ofModel emitters model target runtime).diagnostics =
      (attempts emitters model target).filterMap fun a =>
        (a.run model runtime).error?.map (errorDiagnostic model a) := by
  rw [ofModel, foldl_take]
  rfl

/-- A target reports nothing but errors. -/
theorem isError_of_mem_diagnostics :
    ∀ d ∈ (ofModel emitters model target runtime).diagnostics, d.isError = true := by
  intro d hd
  rw [diagnostics_ofModel] at hd
  obtain ⟨a, _, ha⟩ := List.mem_filterMap.mp hd
  obtain ⟨e, _, rfl⟩ := Option.map_eq_some_iff.mp ha
  rfl

/-- A target reports the errors that it keeps, in order. -/
theorem map_message_diagnostics :
    (ofModel emitters model target runtime).diagnostics.map (·.message) =
      (ofModel emitters model target runtime).errors.map (·.message) := by
  rw [diagnostics_ofModel, errors_ofModel, List.map_filterMap, List.map_filterMap]
  congr 1
  funext a
  cases (a.run model runtime).error? with
  | none => rfl
  | some e => rfl

end OfModel

end TargetEmission

namespace EmissionAttempt

theorem run_eq_ok {model : Model} {runtime : String} {a : EmissionAttempt} {u : SourceUnit} :
    a.run model runtime = .ok u ↔
      ∃ code, a.job.run { model, target := a.target, dialect := a.dialect, runtime } = .ok code ∧
        u = { target := a.target, dialect := a.unitDialect, subject := a.job.subject, code } := by
  unfold run
  split
  · next code hcode => simp [hcode, eq_comm]
  · next hcode => simp [hcode]

theorem run_eq_error {model : Model} {runtime : String} {a : EmissionAttempt} {e : EmissionError} :
    a.run model runtime = .error e ↔
      ∃ subject cause,
        a.job.run { model, target := a.target, dialect := a.dialect, runtime } =
          .error (subject, cause) ∧
        e = { emitter := a.emitter.name, subject, target := a.target, dialect := a.unitDialect,
              cause } := by
  unfold run
  split
  · next code hcode => simp [hcode]
  · next hcode => simp [hcode, eq_comm]

end EmissionAttempt

end DaoGen
