import DaoGen.Proofs.Pass
import DaoGen.Proofs.Verdict

/-!
# Passes for some of the targets

Targets share the models of a pass, the identities that units are told by, and the mark that is set
by the first error. None of these lets one target change what another one gives: a pass for some of
the targets gives what the pass for all of them gives for these.

## Main definitions

* `Outcome.IsRestriction`: an outcome is the part of another one that is of some targets.

## Main results

* `Outcome.distinct_filter`: which targets are kept does not matter to which units are dropped.
* `runPass_filter`: the pass for the targets of a predicate.
* `runPass_sublist`: the pass for a part of a list of targets.
-/
namespace DaoGen

/-! ## Emissions -/

/-- A filter goes over to lists of results that tell what they are of. -/
theorem flatMap_filter_of_forall {α β : Type} {f : α → List β} {p : α → Bool} {q : β → Bool}
    {l : List α} (h : ∀ a ∈ l, ∀ b ∈ f a, q b = p a) :
    (l.filter p).flatMap f = (l.flatMap f).filter q := by
  induction l with
  | nil => rfl
  | cons a l ih =>
    obtain ⟨ha, hl⟩ := List.forall_mem_cons.mp h
    rw [List.flatMap_cons, List.filter_append, ← ih hl]
    cases hp : p a with
    | true =>
      have hall : (f a).filter q = f a := List.filter_eq_self.mpr fun b hb => (ha b hb).trans hp
      rw [List.filter_cons_of_pos hp, List.flatMap_cons, hall]
    | false =>
      have hnone : (f a).filter q = [] :=
        List.filter_eq_nil_iff.mpr fun b hb => by simp [ha b hb, hp]
      rw [List.filter_cons_of_neg (by simp [hp]), hnone, List.nil_append]

namespace TargetEmission

variable {emitters : List Emitter} {model : Model} {target : Target} {runtime : String}

/-- What is generated for a target has that target. -/
theorem target_of_mem_units {u : SourceUnit}
    (hu : u ∈ (ofModel emitters model target runtime).units) : u.id.target = target := by
  rw [units_ofModel] at hu
  obtain ⟨a, ha, hrun⟩ := List.mem_filterMap.mp hu
  obtain ⟨_, htarget, _⟩ := mem_attempts.mp ha
  rw [EmissionAttempt.id_of_run (Except.toOption_eq_some.mp hrun)]
  exact htarget

/-- What fails for a target has that target. -/
theorem target_of_mem_errors {e : EmissionError}
    (he : e ∈ (ofModel emitters model target runtime).errors) : e.target = target := by
  rw [errors_ofModel] at he
  obtain ⟨a, ha, hrun⟩ := List.mem_filterMap.mp he
  obtain ⟨_, htarget, _⟩ := mem_attempts.mp ha
  obtain ⟨_, _, _, rfl⟩ := EmissionAttempt.run_eq_error.mp (Except.error?_eq_some.mp hrun)
  exact htarget

end TargetEmission

/-! ## Outcomes -/

namespace Outcome

/-- Units that a filter drops keep no other unit from being the first of its identity, so the
identities that were seen are filtered as well. -/
theorem distinctAfter_filter (p : UnitId → Bool) (seen : List UnitId) (units : List SourceUnit) :
    distinctAfter (seen.filter p) (units.filter fun u => p u.id) =
      (distinctAfter seen units).filter fun u => p u.id := by
  induction units generalizing seen with
  | nil => rfl
  | cons u rest ih =>
    by_cases hp : p u.id = true
    · have hseen : (seen.filter p).contains u.id = seen.contains u.id := by
        simp [List.contains_eq_mem, List.mem_filter, hp]
      rw [List.filter_cons_of_pos (by exact hp), distinctAfter, distinctAfter, hseen]
      split
      · exact ih seen
      · have hrest := ih (u.id :: seen)
        rw [List.filter_cons_of_pos hp] at hrest
        rw [List.filter_cons_of_pos (by exact hp), hrest]
    · rw [List.filter_cons_of_neg (by exact hp), distinctAfter]
      split
      · exact ih seen
      · have hrest := ih (u.id :: seen)
        rw [List.filter_cons_of_neg hp] at hrest
        rw [List.filter_cons_of_neg (by exact hp), hrest]

/-- The units of some identities are told apart from each other alone. -/
theorem distinct_filter (p : UnitId → Bool) (units : List SourceUnit) :
    distinct (units.filter fun u => p u.id) = (distinct units).filter fun u => p u.id :=
  distinctAfter_filter p [] units

/-- An outcome is the part of another one that is of some targets. What does not belong to a target
is the same. -/
structure IsRestriction (keep : Target → Bool) (whole part : Outcome) : Prop where
  units : part.units = whole.units.filter fun u => keep u.id.target
  emissionErrors : part.emissionErrors = whole.emissionErrors.filter fun e => keep e.target
  modelErrors : part.modelErrors = whole.modelErrors
  deferred : part.deferred = whole.deferred

/-- The emissions of some targets give the part that is of these targets. -/
theorem isRestriction_ofEmissions (keep : Target → Bool) (e : Extraction) (tracker : Tracker)
    (emitters : List Emitter) (runtime : String) (targets : List Target) :
    let emissionOf target := TargetEmission.ofModel emitters e.model target runtime
    IsRestriction keep (ofEmissions e tracker (targets.map emissionOf))
      (ofEmissions e tracker ((targets.filter keep).map emissionOf)) := by
  intro emissionOf
  have hunits : (targets.filter keep).flatMap (fun target => (emissionOf target).units) =
      (targets.flatMap fun target => (emissionOf target).units).filter
        fun u => keep u.id.target := by
    refine flatMap_filter_of_forall fun target _ u hu => ?_
    rw [TargetEmission.target_of_mem_units hu]
  have herrors : (targets.filter keep).flatMap (fun target => (emissionOf target).errors) =
      (targets.flatMap fun target => (emissionOf target).errors).filter
        fun error => keep error.target := by
    refine flatMap_filter_of_forall fun target _ error herror => ?_
    rw [TargetEmission.target_of_mem_errors herror]
  constructor
  case units =>
    dsimp only [ofEmissions]
    rw [List.flatMap_map, List.flatMap_map, hunits]
    exact distinct_filter (fun id => keep id.target) _
  case emissionErrors =>
    dsimp only [ofEmissions]
    rw [List.flatMap_map, List.flatMap_map, herrors]
  case modelErrors => rfl
  case deferred => rfl

end Outcome

/-! ## Passes -/

section RunPass

variable {whole part : Options} (emitters : List Emitter) (source : DeclarationSource)

/-- The pass for the targets of a predicate gives what the whole pass gives for them. -/
theorem runPass_filter {keep : Target → Bool}
    (htargets : part.targets = whole.targets.filter keep)
    (hruntime : part.runtime = whole.runtime) :
    Outcome.IsRestriction keep (runPass whole emitters source) (runPass part emitters source) := by
  rcases runPass_cases whole emitters source with ⟨herrors, hwhole⟩ | ⟨herrors, hwhole⟩ <;>
    rcases runPass_cases part emitters source with ⟨herrors', hpart⟩ | ⟨herrors', hpart⟩
  case inl.inl =>
    rw [hwhole, hpart]
    exact ⟨rfl, rfl, rfl, rfl⟩
  case inr.inr =>
    rw [hwhole, hpart, htargets, hruntime]
    exact Outcome.isRestriction_ofEmissions keep _ _ _ _ _
  -- whether declarations are malformed does not depend on the options
  case inl.inr => exact absurd herrors' herrors
  case inr.inl => exact absurd herrors herrors'

/-- Which targets options ask for is all that counts, not how often nor in which order. -/
theorem runPass_withTargets (options : Options) {kept targets : List Target}
    (hkept : kept ⊆ targets) :
    Outcome.IsRestriction kept.contains (runPass (options.withTargets targets) emitters source)
      (runPass (options.withTargets kept) emitters source) := by
  refine runPass_filter emitters source ?_ rfl
  simp only [Options.withTargets, Options.normalizeTargets, List.filter_filter]
  refine List.filter_congr fun target _ => ?_
  have htargets : kept.contains target = true → targets.contains target = true := by
    simpa using @hkept target
  cases hcontains : kept.contains target with
  | true => rw [htargets hcontains, Bool.and_true]
  | false => rw [Bool.false_and]

/-- A part of a list without duplicates is what the list has of it. -/
theorem filter_contains_of_sublist {kept targets : List Target} (hkept : kept.Sublist targets)
    (hnodup : targets.Nodup) : targets.filter kept.contains = kept := by
  induction hkept with
  | slnil => rfl
  | @cons kept targets target hkept ih =>
    obtain ⟨hnew, hnodup⟩ := List.nodup_cons.mp hnodup
    have hskip : ¬kept.contains target = true := by
      simpa using fun hmem => hnew (hkept.subset hmem)
    rw [List.filter_cons_of_neg hskip, ih hnodup]
  | @cons_cons kept targets target hkept ih =>
    obtain ⟨hnew, hnodup⟩ := List.nodup_cons.mp hnodup
    have hrest : targets.filter (target :: kept).contains = targets.filter kept.contains := by
      refine List.filter_congr fun other hother => ?_
      have hne : other ≠ target := fun h => hnew (h ▸ hother)
      simp [hne]
    rw [List.filter_cons_of_pos (by simp), hrest, ih hnodup]

/-- The pass for a part of a list of targets, in the same order: its units and the errors of its
targets are those of the whole pass that are of these targets, with the same content and in the same
order, and what is known before any target is worked on is the same. -/
theorem runPass_sublist (hnodup : whole.targets.Nodup)
    (hsublist : part.targets.Sublist whole.targets) (hruntime : part.runtime = whole.runtime) :
    Outcome.IsRestriction part.targets.contains (runPass whole emitters source)
      (runPass part emitters source) :=
  runPass_filter emitters source (filter_contains_of_sublist hsublist hnodup).symm hruntime

/-- A source of two DAOs, the implementation of one of which cannot have a name. -/
def halfNamedSource : DeclarationSource where
  declarations :=
    [⟨0, .dao, ⟨"db::1Dao"⟩, [.dao], none⟩, ⟨1, .dao, ⟨"db::TagDao"⟩, [.dao], none⟩]
  members _ := .ok []
  annotationsOf _ := []

/-- Of three targets, each of which has units and errors, the one in the middle is kept. -/
theorem runPass_sublist_halfNamed :
    let whole : Options := { targets := [.jvm, .mobile, .browser], parallel := true }
    let part : Options := { targets := [.mobile] }
    let o := runPass whole Emitter.all halfNamedSource
    let kept := runPass part Emitter.all halfNamedSource
    whole.targets.Nodup ∧ part.targets.Sublist whole.targets ∧
      Outcome.IsRestriction part.targets.contains o kept ∧
      o.emissionErrors.length = 9 ∧ kept.emissionErrors.length = 2 ∧
      o.units.length = 9 ∧ kept.units.length = 2 := by
  intro whole part o kept
  have hsublist : part.targets.Sublist whole.targets := by decide
  refine ⟨by decide, hsublist, ?_, ?_⟩
  · exact runPass_sublist Emitter.all halfNamedSource (by decide) hsublist rfl
  · decide +kernel

end RunPass

end DaoGen
