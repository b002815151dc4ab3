import DaoGen.Extraction
import DaoGen.Proofs.Failure
import DaoGen.Proofs.Text.Trimming

/-!
# Kinds of operations

What the attributes of a method have to say for an operation of each kind. A method with a body of
its own is said nothing about; any other one has exactly one marker, which is a query, perhaps with
others for single dialects, or a write of its only parameter.
-/
namespace DaoGen

/-! ## Attributes -/

/-- Whether an attribute says what an operation does. -/
def Annotation.isMarker : Annotation → Bool
  | .query _ | .insert _ | .update | .delete => true
  | _ => false

/-- The attribute that declares a write. -/
def WriteOp.mark : WriteOp → Annotation
  | .insert => .insert false
  | .replace => .insert true
  | .update => .update
  | .delete => .delete

namespace Marker

/-- The attribute of a marker. -/
def mark : Marker → Annotation
  | .query sql => .query sql
  | .write op => op.mark

theorem mark_injective : Function.Injective mark := by
  rintro (sql | op) (sql' | op') h
  · simpa [mark] using h
  · cases op' <;> cases h
  · cases op <;> cases h
  · cases op <;> cases op' <;> first | rfl | cases h

theorem isSome_of? (a : Annotation) : (of? a).isSome = a.isMarker := by
  cases a <;> rfl

theorem mark_of? {a : Annotation} {marker : Marker} (h : of? a = some marker) :
    marker.mark = a := by
  cases a with
  | insert replace => cases replace <;> (cases h; rfl)
  | _ => first | (cases h; rfl) | cases h

theorem map_mark (annotations : List Annotation) :
    (annotations.filterMap of?).map mark = annotations.filter (·.isMarker) := by
  induction annotations with
  | nil => rfl
  | cons a rest ih =>
    rw [List.filterMap_cons, List.filter_cons, ← isSome_of?]
    cases h : of? a with
    | none => simpa using ih
    | some marker => simp [mark_of? h, ih]

/-- Markers are read off the attributes that are any. -/
theorem filterMap_eq_iff {annotations : List Annotation} {markers : List Marker} :
    annotations.filterMap of? = markers ↔
      annotations.filter (·.isMarker) = markers.map mark := by
  rw [← map_mark]
  exact (List.map_injective_iff.mpr mark_injective).eq_iff.symm

end Marker

/-- No dialect is repeated just if all are distinct, and distinct from those met before. -/
theorem repeatedDialect?_eq_none_iff {seen dialects : List Dialect} :
    repeatedDialect? seen dialects = none ↔ dialects.Nodup ∧ ∀ d ∈ dialects, d ∉ seen := by
  induction dialects generalizing seen with
  | nil => simp [repeatedDialect?]
  | cons d rest ih =>
    rw [repeatedDialect?]
    split
    · next hseen => simp [List.contains_iff_mem.mp hseen]
    · next hnew =>
      rw [ih, List.nodup_cons]
      have hnot : d ∉ seen := by simpa using hnew
      grind

/-! ## Writes -/

/-- An accepted write is one of an entity, or of several, that the only parameter holds. -/
theorem Write.ofParams_eq_ok {scope : Scope} {op : WriteOp} {params : List LogicalParam}
    {result : TypeRef} {write : Write} :
    Write.ofParams scope op params result = .ok write ↔
      ∃ param, params = [param] ∧ write.op = op ∧ write.param = param.name ∧
        write.batch = (elementOf param.ty).2 ∧ (elementOf param.ty).1.nullable = false ∧
        scope.entity (elementOf param.ty).1.name = .found write.entity ∧
        canReturn op write.batch result = true := by
  unfold ofParams
  split
  · next param =>
    simp only [List.cons.injEq, and_true, exists_eq_left']
    generalize elementOf param.ty = element
    obtain ⟨element, batch⟩ := element
    obtain ⟨op', entity, name, batch'⟩ := write
    dsimp only
    split
    · next hnullable => simp [hnullable]
    · next hpresent =>
      split
      · next hresolved => simp [hresolved]
      · next hresolved => simp [hresolved]
      · next hresolved => simp [hresolved]
      · next hresolved =>
        split
        · next hreturn =>
          rw [hresolved]
          grind
        · next hreturn => grind
  · next hnot =>
    refine ⟨nofun, fun ⟨param, hparams, _⟩ => ?_⟩
    exact absurd hparams (hnot param)

/-- A write waits for an entity that was put off. -/
theorem Write.deferred_of_ofParams {scope : Scope} {op : WriteOp} {params : List LogicalParam}
    {result : TypeRef} {name : String}
    (h : Write.ofParams scope op params result = .error (.unresolved name)) :
    scope.entity name = .deferred := by
  unfold ofParams at h
  split at h
  · dsimp only at h
    split at h
    · cases h
    · split at h
      · next hdeferred =>
        cases h
        exact hdeferred
      · cases h
      · cases h
      · split at h <;> cases h
  · cases h

/-! ## Kinds -/

namespace OperationKind

/-- The attributes of a method, with or without a body of its own, say that an operation is of a
kind. -/
inductive IsMarked (annotations : List Annotation) : (hasBody : Bool) → OperationKind → Prop where
  | custom (hmarkers : annotations.filter (·.isMarker) = [])
    (hoverrides : overridesOf annotations = []) : IsMarked annotations true .custom
  | query {sql : String} (hmarkers : annotations.filter (·.isMarker) = [.query sql])
    (hsql : ∃ c ∈ sql.toList, Text.isBlank c = false)
    (hdialects : ((overridesOf annotations).map (·.1)).Nodup) :
    IsMarked annotations false (.query ⟨sql, overridesOf annotations⟩)
  | write {write : Write} (hmarkers : annotations.filter (·.isMarker) = [write.op.mark])
    (hoverrides : overridesOf annotations = []) : IsMarked annotations false (.write write)

/-- The attributes of a method, with or without a body of its own, say too much or too little. -/
inductive Conflict (annotations : List Annotation) : (hasBody : Bool) → Prop where
  | unmarked (hmarkers : annotations.filter (·.isMarker) = []) : Conflict annotations false
  | repeated {hasBody : Bool} (hmarkers : 2 ≤ (annotations.filter (·.isMarker)).length) :
    Conflict annotations hasBody
  | kept (hmarkers : annotations.filter (·.isMarker) ≠ []) : Conflict annotations true
  | overriding {hasBody : Bool} (hoverrides : overridesOf annotations ≠ [])
    (hquery : ∀ sql, .query sql ∉ annotations) : Conflict annotations hasBody

variable {annotations : List Annotation} {hasBody : Bool} {kind : OperationKind}

theorem IsMarked.not_conflict (h : kind.IsMarked annotations hasBody) :
    ¬ Conflict annotations hasBody := by
  intro hconflict
  cases h with
  | custom hmarkers hoverrides =>
    cases hconflict with
    | repeated hlength => simp [hmarkers] at hlength
    | kept hne => exact hne hmarkers
    | overriding hne _ => exact hne hoverrides
  | @query sql hmarkers _ _ =>
    cases hconflict with
    | unmarked hnone => simp [hmarkers] at hnone
    | repeated hlength => simp [hmarkers] at hlength
    | overriding _ hquery =>
      have hmem : .query sql ∈ annotations.filter (·.isMarker) := by simp [hmarkers]
      exact hquery sql (List.mem_of_mem_filter hmem)
  | write hmarkers hoverrides =>
    cases hconflict with
    | unmarked hnone => simp [hmarkers] at hnone
    | repeated hlength => simp [hmarkers] at hlength
    | overriding hne _ => exact hne hoverrides

variable {scope : Scope} {params : List LogicalParam} {result : TypeRef}

/-- A marked kind is the one that is read, unless it is a write that is refused. -/
theorem IsMarked.ofAnnotations_eq (h : kind.IsMarked annotations hasBody) :
    ofAnnotations scope annotations hasBody params result =
      match kind with
      | .write w => (Write.ofParams scope w.op params result).map .write
      | .query _ | .custom => .ok kind := by
  unfold ofAnnotations
  cases h with
  | custom hmarkers hoverrides =>
    have hnone : annotations.filterMap Marker.of? = [] := Marker.filterMap_eq_iff.mpr hmarkers
    simp [hoverrides, hnone, repeatedDialect?]
  | @query sql hmarkers hsql hdialects =>
    have hone : annotations.filterMap Marker.of? = [.query sql] :=
      Marker.filterMap_eq_iff.mpr hmarkers
    have hdistinct : repeatedDialect? [] ((overridesOf annotations).map (·.1)) = none :=
      repeatedDialect?_eq_none_iff.mpr ⟨hdialects, by simp⟩
    have htrim : Text.trim sql ≠ "" := by
      obtain ⟨c, hc, hblank⟩ := hsql
      rw [Ne, Text.trim_eq_empty_iff]
      exact fun hall => by simp [hall c hc] at hblank
    simp [hdistinct, hone, htrim]
  | @write write hmarkers hoverrides =>
    have hone : annotations.filterMap Marker.of? = [.write write.op] :=
      Marker.filterMap_eq_iff.mpr hmarkers
    simp [hoverrides, hone, repeatedDialect?]

/-- Attributes are read as a marked kind that needs no more, as a write, or with a fault. -/
theorem ofAnnotations_cases (scope : Scope) (annotations : List Annotation) (hasBody : Bool)
    (params : List LogicalParam) (result : TypeRef) :
    (∃ kind : OperationKind, kind.IsMarked annotations hasBody ∧ (∀ write, kind ≠ .write write) ∧
        ofAnnotations scope annotations hasBody params result = .ok kind) ∨
      (∃ op, (∀ write : Write, write.op = op →
          (OperationKind.write write).IsMarked annotations hasBody) ∧
        ofAnnotations scope annotations hasBody params result =
          (Write.ofParams scope op params result).map .write) ∨
      ∃ fault, ofAnnotations scope annotations hasBody params result = .error (.fault fault) := by
  unfold ofAnnotations
  dsimp only
  split
  · exact .inr (.inr ⟨_, rfl⟩)
  · next hdistinct =>
    split
    · exact .inr (.inr ⟨_, rfl⟩)
    · next hmarkers =>
      split
      · exact .inr (.inr ⟨_, rfl⟩)
      · next hoverrides =>
        split
        · next hbody =>
          subst hbody
          have hnone := Marker.filterMap_eq_iff.mp hmarkers
          exact .inl ⟨.custom, .custom hnone (by simpa using hoverrides), nofun, rfl⟩
        · exact .inr (.inr ⟨_, rfl⟩)
    · next marker hmarkers =>
      have hone := Marker.filterMap_eq_iff.mp hmarkers
      split
      · exact .inr (.inr ⟨_, rfl⟩)
      · next hbody =>
        rw [Bool.not_eq_true] at hbody
        subst hbody
        split
        · next sql =>
          split
          · exact .inr (.inr ⟨_, rfl⟩)
          · next htrim =>
            have hsql : ∃ c ∈ sql.toList, Text.isBlank c = false := by
              simpa [Text.trim_eq_empty_iff] using htrim
            have hdialects := (repeatedDialect?_eq_none_iff.mp hdistinct).1
            exact .inl ⟨_, .query hone hsql hdialects, nofun, rfl⟩
        · next op =>
          split
          · exact .inr (.inr ⟨_, rfl⟩)
          · next hoverrides =>
            refine .inr (.inl ⟨op, fun write hop => ?_, rfl⟩)
            exact .write (hop ▸ hone) (by simpa using hoverrides)

theorem ofAnnotations_eq_ok :
    ofAnnotations scope annotations hasBody params result = .ok kind ↔
      kind.IsMarked annotations hasBody ∧
        ∀ write, kind = .write write → Write.ofParams scope write.op params result = .ok write := by
  constructor
  · intro h
    obtain ⟨kind', hmarked, hne, hkind⟩ | ⟨op, hmarked, hwrite⟩ | ⟨fault, hfault⟩ :=
      ofAnnotations_cases scope annotations hasBody params result
    · cases h.symm.trans hkind
      exact ⟨hmarked, fun write hwrite => absurd hwrite (hne write)⟩
    · obtain ⟨write, hok, rfl⟩ := Except.map_eq_ok.mp (hwrite.symm.trans h)
      obtain ⟨_, _, hop, _⟩ := Write.ofParams_eq_ok.mp hok
      refine ⟨hmarked write hop, fun write' hwrite' => ?_⟩
      cases hwrite'
      exact hop ▸ hok
    · cases h.symm.trans hfault
  · rintro ⟨hmarked, hwrite⟩
    rw [hmarked.ofAnnotations_eq]
    cases kind with
    | write write => exact Except.map_eq_ok.mpr ⟨write, hwrite write rfl, rfl⟩
    | query | custom => rfl

/-- Only the attributes of a write can make an operation wait. -/
theorem ofAnnotations_unresolved {name : String}
    (h : ofAnnotations scope annotations hasBody params result = .error (.unresolved name)) :
    (∃ kind : OperationKind, kind.IsMarked annotations hasBody) ∧
      scope.entity name = .deferred := by
  obtain ⟨_, _, _, hkind⟩ | ⟨op, hmarked, hwrite⟩ | ⟨_, hfault⟩ :=
    ofAnnotations_cases scope annotations hasBody params result
  · cases h.symm.trans hkind
  · rw [hwrite] at h
    cases hparams : Write.ofParams scope op params result with
    | ok _ => simp [hparams, Except.map] at h
    | error rejection =>
      simp only [hparams, Except.map, Except.error.injEq] at h
      let write : Write := { op, entity := ⟨name⟩, param := "", batch := false }
      exact ⟨⟨.write write, hmarked write rfl⟩, Write.deferred_of_ofParams (h ▸ hparams)⟩
  · cases h.symm.trans hfault

end OperationKind

end DaoGen
