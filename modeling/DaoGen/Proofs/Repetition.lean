import DaoGen.Proofs.Interleaving
import DaoGen.Proofs.Pass
import DaoGen.Proofs.Restriction

/-!
# Repeated emitters

What a target gives is what its emitters give one after another. An emitter that is repeated makes
the same attempts again: its units have identities that were seen before, and its errors are kept
and reported once more.

## Main results

* `Outcome.distinct_flatMap_eraseDups`: a repetition adds nothing to what is kept.
* `runPass_emitters`: how a pass depends on its emitters.
-/
namespace DaoGen

/-! ## Kept units -/

namespace Outcome

/-- The identities that were seen when some units have been gone through. -/
def seenAfter (seen : List UnitId) (units : List SourceUnit) : List UnitId :=
  ((distinctAfter seen units).map (·.id)).reverse ++ seen

theorem seenAfter_cons_of_mem {seen : List UnitId} {u : SourceUnit} (units : List SourceUnit)
    (h : u.id ∈ seen) : seenAfter seen (u :: units) = seenAfter seen units := by
  simp [seenAfter, distinctAfter, h]

theorem seenAfter_cons_of_not_mem {seen : List UnitId} {u : SourceUnit} (units : List SourceUnit)
    (h : u.id ∉ seen) : seenAfter seen (u :: units) = seenAfter (u.id :: seen) units := by
  simp [seenAfter, distinctAfter, h]

theorem mem_seenAfter {seen : List UnitId} {units : List SourceUnit} {i : UnitId} :
    i ∈ seenAfter seen units ↔ i ∈ seen ∨ ∃ u ∈ units, u.id = i := by
  induction units generalizing seen with
  | nil => simp [seenAfter, distinctAfter]
  | cons u units ih =>
    by_cases hu : u.id ∈ seen
    · rw [seenAfter_cons_of_mem units hu, ih]
      grind
    · rw [seenAfter_cons_of_not_mem units hu, ih]
      grind

theorem distinctAfter_append (seen : List UnitId) (us vs : List SourceUnit) :
    distinctAfter seen (us ++ vs) =
      distinctAfter seen us ++ distinctAfter (seenAfter seen us) vs := by
  induction us generalizing seen with
  | nil => rfl
  | cons u us ih =>
    by_cases hu : u.id ∈ seen
    · rw [seenAfter_cons_of_mem us hu]
      simp [distinctAfter, hu, ih]
    · rw [seenAfter_cons_of_not_mem us hu]
      simp [distinctAfter, hu, ih]

/-- Nothing is kept of units that were all seen before. -/
theorem distinctAfter_eq_nil {seen : List UnitId} {units : List SourceUnit}
    (h : ∀ u ∈ units, u.id ∈ seen) : distinctAfter seen units = [] := by
  refine List.eq_nil_iff_forall_not_mem.mpr fun u hu => ?_
  obtain ⟨hmem, hnew⟩ := (distinctAfter_spec seen units).2 u hu
  exact hnew (h u hmem)

section Repetition

variable {α : Type} [DecidableEq α] (unitsOf : α → List SourceUnit)

/-- What gives units that were all seen before can be left out. -/
theorem distinctAfter_flatMap_filter {a : α} {seen : List UnitId}
    (h : ∀ u ∈ unitsOf a, u.id ∈ seen) (as : List α) :
    distinctAfter seen ((as.filter fun b => !b == a).flatMap unitsOf) =
      distinctAfter seen (as.flatMap unitsOf) := by
  induction as generalizing seen with
  | nil => rfl
  | cons b as ih =>
    rw [List.flatMap_cons, distinctAfter_append]
    have hseen : ∀ u ∈ unitsOf a, u.id ∈ seenAfter seen (unitsOf b) :=
      fun u hu => mem_seenAfter.mpr (.inl (h u hu))
    have hrest := ih hseen
    by_cases hb : b = a
    · subst hb
      have hnone := distinctAfter_eq_nil h
      have hsame : seenAfter seen (unitsOf b) = seen := by simp [seenAfter, hnone]
      rw [hsame] at hrest ⊢
      simpa [hnone] using hrest
    · rw [List.filter_cons_of_pos (by simpa using hb), List.flatMap_cons, distinctAfter_append,
        hrest]

/-- Only what comes for the first time matters. The induction is on the length, since what is left
of the others after an item is a part of them. -/
theorem distinctAfter_flatMap_eraseDups (seen : List UnitId) (as : List α) :
    distinctAfter seen (as.eraseDups.flatMap unitsOf) =
      distinctAfter seen (as.flatMap unitsOf) := by
  induction hlength : as.length using Nat.strong_induction_on generalizing seen as with
  | _ n ih =>
    cases as with
    | nil => rfl
    | cons a as =>
      have hle := List.length_filter_le (fun b => !b == a) as
      have hseen : ∀ u ∈ unitsOf a, u.id ∈ seenAfter seen (unitsOf a) :=
        fun u hu => mem_seenAfter.mpr (.inr ⟨u, hu, rfl⟩)
      rw [List.length_cons] at hlength
      rw [List.eraseDups_cons, List.flatMap_cons, List.flatMap_cons, distinctAfter_append,
        distinctAfter_append, ih _ (by omega) _ _ rfl, distinctAfter_flatMap_filter unitsOf hseen]

end Repetition

/-- Repetitions make no difference in any of several lists. -/
theorem distinct_flatMap_eraseDups {α β : Type} [DecidableEq α] (unitsOf : β → α → List SourceUnit)
    (bs : List β) (as : List α) :
    distinct (bs.flatMap fun b => as.eraseDups.flatMap (unitsOf b)) =
      distinct (bs.flatMap fun b => as.flatMap (unitsOf b)) := by
  unfold distinct
  generalize ([] : List UnitId) = seen
  induction bs generalizing seen with
  | nil => rfl
  | cons b bs ih =>
    have hfirst := distinctAfter_flatMap_eraseDups (unitsOf b) seen as
    rw [List.flatMap_cons, List.flatMap_cons, distinctAfter_append, distinctAfter_append, hfirst,
      seenAfter, hfirst, ih]
    rfl

end Outcome

/-! ## Single emitters -/

namespace TargetEmission

variable (emitters : List Emitter) (model : Model) (target : Target) (runtime : String)

/-- The attempts of emitters are made one emitter after another. -/
theorem attempts_eq_flatMap :
    attempts emitters model target =
      emitters.flatMap fun emitter => attempts [emitter] model target := by
  induction emitters with
  | nil => rfl
  | cons emitter emitters ih =>
    rw [List.flatMap_cons, ← ih]
    simp only [attempts, List.filter_cons]
    split <;> simp

theorem units_eq_flatMap :
    (ofModel emitters model target runtime).units =
      emitters.flatMap fun emitter => (ofModel [emitter] model target runtime).units := by
  simp only [units_ofModel, ← List.filterMap_flatMap, ← attempts_eq_flatMap]

theorem errors_eq_flatMap :
    (ofModel emitters model target runtime).errors =
      emitters.flatMap fun emitter => (ofModel [emitter] model target runtime).errors := by
  simp only [errors_ofModel, ← List.filterMap_flatMap, ← attempts_eq_flatMap]

theorem diagnostics_eq_flatMap :
    (ofModel emitters model target runtime).diagnostics =
      emitters.flatMap fun emitter => (ofModel [emitter] model target runtime).diagnostics := by
  simp only [diagnostics_ofModel, ← List.filterMap_flatMap, ← attempts_eq_flatMap]

end TargetEmission

section RunPass

variable (options : Options) (emitters : List Emitter) (source : DeclarationSource)

/-- The units of a pass are what the attempts on its targets give. -/
theorem mem_units_runPass {u : SourceUnit} :
    u ∈ (runPass options emitters source).units ↔
      (Extraction.ofSource source).errors = [] ∧ ∃ target ∈ options.targets,
        ∃ a ∈ TargetEmission.attempts emitters (Extraction.ofSource source).model target,
          a.run (Extraction.ofSource source).model options.runtime = .ok u := by
  constructor
  · intro hu
    refine ⟨?_, exists_attempt_of_mem_units hu⟩
    rcases runPass_cases options emitters source with ⟨_, heq⟩ | ⟨herrors, _⟩
    · rw [heq] at hu
      cases hu
    · exact herrors
  · rintro ⟨herrors, target, htarget, a, ha, hrun⟩
    rcases runPass_cases options emitters source with ⟨hne, _⟩ | ⟨_, heq⟩
    · exact absurd herrors hne
    · rw [heq]
      exact TargetEmission.mem_distinct (.ofSource source) htarget ha hrun

/-- Which units there are depends on which emitters there are. -/
theorem units_runPass_perm {emitters emitters' : List Emitter}
    (h : ∀ emitter, emitter ∈ emitters' ↔ emitter ∈ emitters) :
    (runPass options emitters' source).units.Perm (runPass options emitters source).units := by
  have hnodup (es : List Emitter) : (runPass options es source).units.Nodup :=
    (runPass_units options es source).1.of_map _
  refine (List.perm_ext_iff_of_nodup (hnodup emitters') (hnodup emitters)).mpr fun u => ?_
  simp only [mem_units_runPass, TargetEmission.mem_attempts, h]

theorem units_runPass_eraseDups :
    (runPass options emitters.eraseDups source).units =
      (runPass options emitters source).units := by
  rcases runPass_cases options emitters source with ⟨_, heq⟩ | ⟨herrors, heq⟩
  · rcases runPass_cases options emitters.eraseDups source with ⟨_, heq'⟩ | ⟨hnone, _⟩
    · rw [heq, heq']
    · contradiction
  · rcases runPass_cases options emitters.eraseDups source with ⟨hsome, _⟩ | ⟨_, heq'⟩
    · contradiction
    · rw [heq, heq']
      simp only [Outcome.ofEmissions, List.flatMap_map,
        TargetEmission.units_eq_flatMap emitters,
        TargetEmission.units_eq_flatMap emitters.eraseDups]
      exact Outcome.distinct_flatMap_eraseDups _ options.targets emitters

/-- Errors are kept target by target, as every emitter gives them alone. -/
theorem emissionErrors_runPass :
    (runPass options emitters source).emissionErrors =
      options.targets.flatMap fun target => emitters.flatMap fun emitter =>
        (runPass { options with targets := [target] } [emitter] source).emissionErrors := by
  cases hvalid : (Extraction.ofSource source).isValid with
  | false =>
    have hnone (o : Options) (es : List Emitter) : (runPass o es source).emissionErrors = [] := by
      rcases runPass_cases o es source with ⟨_, heq⟩ | ⟨herrors, _⟩
      · rw [heq]
      · simp [Extraction.isValid, herrors] at hvalid
    simp [hnone]
  | true =>
    simp only [runPass_of_isValid _ _ source hvalid, Outcome.ofEmissions, targetEmissions,
      List.flatMap_map, List.flatMap_cons, List.flatMap_nil, List.append_nil, List.map_cons,
      List.map_nil, TargetEmission.errors_eq_flatMap emitters]

/-- Reports are made target by target, as every emitter makes them alone. -/
theorem targetReports_flatten :
    (targetReports options emitters source).flatten =
      options.targets.flatMap fun target => emitters.flatMap fun emitter =>
        (targetReports { options with targets := [target] } [emitter] source).flatten := by
  cases hvalid : (Extraction.ofSource source).isValid with
  | false => simp [targetReports, hvalid]
  | true =>
    simp only [targetReports, if_pos hvalid, targetEmissions, List.map_map, List.map_cons,
      List.map_nil, List.flatten_cons, List.flatten_nil, List.append_nil, ← List.flatMap_def,
      Function.comp_def, TargetEmission.diagnostics_eq_flatMap emitters]

end RunPass

/-- A pass depends on its emitters as follows. No two units have the same identity. Without the
later ones of repeated emitters the units are the same in the same order, and with the same emitters
in another order, or repeated otherwise, they are the same in some order. Errors and reports come
target by target and emitter by emitter, for each as in the pass for the target with the emitter
alone, so that those of a repeated emitter are repeated. If targets are worked on at the same time
then nothing but the order of the reports is another one. -/
theorem runPass_emitters (options : Options) (emitters : List Emitter)
    (source : DeclarationSource) :
    let o := runPass options emitters source
    let alone := fun target emitter =>
      runPass { options with targets := [target] } [emitter] source
    (o.units.map (·.id)).Nodup ∧
    (runPass options emitters.eraseDups source).units = o.units ∧
    (∀ emitters' : List Emitter, (∀ emitter, emitter ∈ emitters' ↔ emitter ∈ emitters) →
      (runPass options emitters' source).units.Perm o.units) ∧
    o.emissionErrors = options.targets.flatMap (fun target =>
      emitters.flatMap fun emitter => (alone target emitter).emissionErrors) ∧
    (∃ reports : Target → Emitter → List Diagnostic,
      (∀ target emitter, (alone target emitter).diagnostics =
        (Extraction.ofSource source).diagnostics ++ reports target emitter) ∧
      o.diagnostics = (Extraction.ofSource source).diagnostics ++
        options.targets.flatMap fun target => emitters.flatMap (reports target)) ∧
    ∀ schedule tracker o', runConcurrently options emitters source schedule = some (tracker, o') →
      o'.units = o.units ∧ o'.emissionErrors = o.emissionErrors ∧
        o'.diagnostics.Perm o.diagnostics := by
  intro o alone
  refine ⟨(runPass_units options emitters source).1,
    units_runPass_eraseDups options emitters source,
    fun emitters' h => units_runPass_perm options source h,
    emissionErrors_runPass options emitters source, ?_, ?_⟩
  · refine ⟨fun target emitter =>
      (targetReports { options with targets := [target] } [emitter] source).flatten,
      fun target emitter => diagnostics_runPass _ [emitter] source, ?_⟩
    rw [← targetReports_flatten]
    exact diagnostics_runPass options emitters source
  · intro schedule tracker o' hrun
    have hsame := isInterleaved_runConcurrently options emitters source hrun
    exact ⟨hsame.units, hsame.emissionErrors, hsame.perm⟩

/-- The emitters of implementations and endpoints, one of them repeated, in two orders. An emitter
that is repeated gives its error twice and its unit once. -/
theorem runPass_emitters_halfNamed :
    let options : Options := { targets := [.jvm, .mobile], parallel := true }
    let emitters : List Emitter := [.implementation, .http, .implementation]
    let emitters' : List Emitter := [.http, .http, .implementation]
    let o := runPass options emitters halfNamedSource
    let o' := runPass options emitters' halfNamedSource
    o'.units.Perm o.units ∧ o'.units.length = 5 ∧ o.emissionErrors.length = 8 ∧
      (runPass options emitters.eraseDups halfNamedSource).units = o.units := by
  intro options emitters emitters' o o'
  obtain ⟨_, herased, hperm, _⟩ := runPass_emitters options emitters halfNamedSource
  have hlengths : o'.units.length = 5 ∧ o.emissionErrors.length = 8 := by decide +kernel
  have hsame (emitter : Emitter) : emitter ∈ emitters' ↔ emitter ∈ emitters := by
    cases emitter <;> decide
  exact ⟨hperm emitters' hsame, hlengths.1, hlengths.2, herased⟩

end DaoGen
