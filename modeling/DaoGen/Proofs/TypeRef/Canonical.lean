import DaoGen.Proofs.TypeRef.Meaning
import DaoGen.Proofs.TypeRef.Plain

/-!
# Normal forms at every place

What a normal form looks like can be said node by node, without `normalize`: common names, no
covariant arguments, and no box or option of one plain argument. `normalize` gives types of this
form, leaves them as they are, and only depends on the normal forms of the arguments.
-/
namespace DaoGen.TypeRef

/-! ## Places -/

/-- A type around the type of one of its arguments. -/
structure Frame where
  name : String
  before : List (TypeArg TypeRef) := []
  projection : Projection := .invariant
  after : List (TypeArg TypeRef) := []
  nullable : Bool := false
  reference : Bool := false
  deriving DecidableEq, Repr

/-- The type with another one as the argument that was left out. -/
def Frame.fill (frame : Frame) (t : TypeRef) : TypeRef where
  name := frame.name
  args := frame.before ++ .type frame.projection t :: frame.after
  nullable := frame.nullable
  reference := frame.reference

/-- The type around a place, given from the outside in, with another one at the place. -/
def fill (place : List Frame) (t : TypeRef) : TypeRef := place.foldr Frame.fill t

@[simp] theorem fill_nil (t : TypeRef) : fill [] t = t := rfl

@[simp] theorem fill_cons (frame : Frame) (place : List Frame) (t : TypeRef) :
    fill (frame :: place) t = frame.fill (fill place t) := rfl

theorem Frame.mem_args_fill (frame : Frame) (t : TypeRef) :
    .type frame.projection t ∈ (frame.fill t).args := by simp [fill]

/-- The type of an argument stands at a place of its own. -/
theorem exists_frame {t u : TypeRef} {projection : Projection}
    (h : .type projection u ∈ t.args) : ∃ frame : Frame, frame.fill u = t := by
  obtain ⟨name, args, nullable, reference⟩ := t
  obtain ⟨before, after, rfl⟩ := List.append_of_mem h
  exact ⟨{ name, before, projection, after, nullable, reference }, rfl⟩

theorem sizeOf_lt_of_mem_args {t u : TypeRef} {projection : Projection}
    (h : .type projection u ∈ t.args) : sizeOf u < sizeOf t := by
  have harg := List.sizeOf_lt_of_mem h
  cases t
  simp only [TypeArg.type.sizeOf_spec, mk.sizeOf_spec] at harg ⊢
  omega

/-- What holds of a type whenever it holds of the types of its arguments holds of every type. -/
theorem induction_args {P : TypeRef → Prop}
    (step : ∀ t, (∀ projection u, .type projection u ∈ t.args → P u) → P t) (t : TypeRef) : P t :=
  step t fun _ u _ => induction_args step u
termination_by sizeOf t
decreasing_by exact sizeOf_lt_of_mem_args ‹_›

/-- Whether something holds of every node of a type. -/
def Everywhere (P : TypeRef → Prop) (t : TypeRef) : Prop := ∀ place u, fill place u = t → P u

theorem everywhere_iff {P : TypeRef → Prop} {t : TypeRef} :
    t.Everywhere P ↔ P t ∧ ∀ projection u, .type projection u ∈ t.args → u.Everywhere P := by
  constructor
  · intro h
    refine ⟨h [] t rfl, fun projection u hu place v hplace => ?_⟩
    obtain ⟨frame, hframe⟩ := exists_frame hu
    exact h (frame :: place) v (by rw [fill_cons, hplace, hframe])
  · rintro ⟨ht, hargs⟩ place u hplace
    cases place with
    | nil =>
      obtain rfl : u = t := hplace
      exact ht
    | cons frame place =>
      subst hplace
      exact hargs _ _ (frame.mem_args_fill _) place u rfl

/-! ## The form of a node -/

/-- The types that mark or only hold the type of their plain argument. -/
def carrierNames : List String := ["Box", "Rc", "Arc", "Option"]

/-- The outer layer of a type says nothing that has a simpler form. -/
structure IsReduced (t : TypeRef) : Prop where
  not_covariant : ∀ u, .type .covariant u ∉ t.args
  name_common : ∀ a, alias? t.name = some a → a.canonical = t.name
  not_carrier : t.name ∈ carrierNames → ∀ u, t.args ≠ [.type .invariant u]

/-- Every node of a type is reduced. -/
def IsNormal (t : TypeRef) : Prop := ∀ place u, fill place u = t → u.IsReduced

theorem isNormal_iff {t : TypeRef} :
    t.IsNormal ↔ t.IsReduced ∧ ∀ projection u, .type projection u ∈ t.args → u.IsNormal :=
  everywhere_iff

/-- The marks of a type do not matter. -/
theorem IsNormal.mark {t : TypeRef} (h : t.IsNormal) (nullable reference : Bool) :
    IsNormal { t with nullable, reference } := by
  obtain ⟨⟨hcovariant, hname, hcarrier⟩, hargs⟩ := isNormal_iff.mp h
  exact isNormal_iff.mpr ⟨⟨hcovariant, hname, hcarrier⟩, hargs⟩

/-! ## One layer -/

theorem canonicalName_eq_self_iff {name : String} :
    canonicalName name = name ↔ ∀ a, alias? name = some a → a.canonical = name := by
  unfold canonicalName
  cases alias? name <;> simp

theorem isBox_or_option_iff {name : String} :
    isBox name = true ∨ name = "Option" ↔ name ∈ carrierNames := by
  simp [isBox, carrierNames, or_assoc]

/-- A type is rebuilt as it is, unless it is a carrier of one plain argument. -/
theorem rebuild_of_not_carrier {name : String} {args : List (TypeArg TypeRef)}
    (h : name ∈ carrierNames → ∀ u, args ≠ [.type .invariant u]) (nullable reference : Bool) :
    rebuild name args nullable reference = ⟨name, args, nullable, reference⟩ := by
  unfold rebuild
  split
  · next inner =>
    have hnot : ¬ name ∈ carrierNames := fun hname => h hname inner rfl
    rw [← isBox_or_option_iff, not_or] at hnot
    rw [if_neg hnot.1, if_neg hnot.2]
  · rfl

/-- What is rebuilt from a carrier of one plain argument is that argument, up to its marks. -/
theorem rebuild_of_carrier {name : String} (h : name ∈ carrierNames) (inner : TypeRef)
    (nullable reference : Bool) :
    ∃ nullable' reference', rebuild name [.type .invariant inner] nullable reference =
      { inner with nullable := nullable', reference := reference' } := by
  unfold rebuild
  rcases isBox_or_option_iff.mpr h with hbox | hoption
  · exact ⟨_, _, if_pos hbox⟩
  · have hbox : ¬ isBox name = true := by simp [hoption, isBox]
    exact ⟨_, _, (if_neg hbox).trans (if_pos hoption)⟩

/-- The arguments of a normal form are normal forms, and none is covariant. -/
theorem mem_normalizeArgs {args : List (TypeArg TypeRef)} {projection : Projection} {u : TypeRef}
    (h : .type projection u ∈ normalizeArgs args) :
    projection ≠ .covariant ∧ ∃ projection' u', .type projection' u' ∈ args ∧ normalize u' = u := by
  rw [normalizeArgs_eq_map] at h
  obtain ⟨arg, harg, heq⟩ := List.mem_map.mp h
  cases arg with
  | star => cases heq
  | type projection' u' =>
    cases projection' <;> (cases heq; exact ⟨nofun, _, u', harg, rfl⟩)

theorem normalizeArgs_eq_self {args : List (TypeArg TypeRef)}
    (hcovariant : ∀ u, .type .covariant u ∉ args)
    (hargs : ∀ projection u, .type projection u ∈ args → normalize u = u) :
    normalizeArgs args = args := by
  have hsame : ∀ arg ∈ args, normalizeArg arg = id arg := by
    intro arg harg
    cases arg with
    | star => rfl
    | type projection u =>
      cases projection with
      | covariant => exact absurd harg (hcovariant u)
      | invariant | contravariant => simp only [normalizeArg, hargs _ u harg, id]
  rw [normalizeArgs_eq_map, List.map_congr_left hsame, List.map_id]

/-! ## All layers -/

/-- Every node of a normal form is reduced: what a carrier leaves behind is a normal form itself. -/
theorem isNormal_normalize (t : TypeRef) : t.normalize.IsNormal := by
  induction t using induction_args with
  | step t ih =>
    obtain ⟨name, args, nullable, reference⟩ := t
    have hargs : ∀ projection u, .type projection u ∈ normalizeArgs args → u.IsNormal := by
      intro projection u hu
      obtain ⟨_, projection', u', hu', rfl⟩ := mem_normalizeArgs hu
      exact ih projection' u' hu'
    rw [normalize]
    by_cases hcarrier :
      canonicalName name ∈ carrierNames → ∀ u, normalizeArgs args ≠ [.type .invariant u]
    · rw [rebuild_of_not_carrier hcarrier, isNormal_iff]
      refine ⟨⟨fun u hu => (mem_normalizeArgs hu).1 rfl, ?_, hcarrier⟩, hargs⟩
      exact canonicalName_eq_self_iff.mp (canonicalName_canonicalName name)
    · push Not at hcarrier
      obtain ⟨hname, inner, hinner⟩ := hcarrier
      obtain ⟨nullable', reference', hrebuild⟩ := rebuild_of_carrier hname inner nullable reference
      rw [hinner, hrebuild]
      exact (hargs .invariant inner (hinner ▸ List.mem_singleton_self _)).mark _ _

/-- A type that has the form of a normal form is its own. -/
theorem IsNormal.normalize_eq {t : TypeRef} (h : t.IsNormal) : t.normalize = t := by
  induction t using induction_args with
  | step t ih =>
    obtain ⟨hreduced, hargs⟩ := isNormal_iff.mp h
    obtain ⟨name, args, nullable, reference⟩ := t
    have hsame : normalizeArgs args = args :=
      normalizeArgs_eq_self hreduced.not_covariant fun projection u hu =>
        ih projection u hu (hargs projection u hu)
    have hname : canonicalName name = name := canonicalName_eq_self_iff.mpr hreduced.name_common
    rw [normalize, hsame, hname, rebuild_of_not_carrier hreduced.not_carrier]

/-! ## Arguments -/

theorem Frame.normalize_fill (frame : Frame) {t u : TypeRef} (h : t.normalize = u.normalize) :
    (frame.fill t).normalize = (frame.fill u).normalize := by
  have harg : normalizeArg (.type frame.projection t) =
      normalizeArg (.type frame.projection u) := by
    cases frame.projection <;> simp only [normalizeArg, h]
  simp only [Frame.fill, normalize, normalizeArgs_eq_map, List.map_append, List.map_cons, harg]

/-- A type may be replaced at any place by one with the same normal form. -/
theorem normalize_fill (place : List Frame) {t u : TypeRef} (h : t.normalize = u.normalize) :
    (fill place t).normalize = (fill place u).normalize := by
  induction place with
  | nil => exact h
  | cons frame place ih => exact frame.normalize_fill ih

/-- `normalize` computes canonical forms: it has nothing left to do on what it gives, its values are
the types all of whose nodes are reduced, and a type inside may be replaced by its normal form or by
a box of it. -/
theorem normalize_canonical (t : TypeRef) :
    t.normalize.normalize = t.normalize ∧ t.normalize.IsNormal ∧ (t.normalize = t ↔ t.IsNormal) ∧
      ∀ place u, fill place u = t →
        (fill place u.normalize).normalize = t.normalize ∧
          ∀ box ∈ ["Box", "Rc", "Arc"], (fill place (generic box [u])).normalize = t.normalize := by
  have hnormal := isNormal_normalize t
  refine ⟨hnormal.normalize_eq, hnormal, ⟨fun h => h ▸ hnormal, IsNormal.normalize_eq⟩, ?_⟩
  rintro place u rfl
  refine ⟨normalize_fill place (isNormal_normalize u).normalize_eq, fun box hbox => ?_⟩
  have hname : ∀ box ∈ ["Box", "Rc", "Arc"], isBox (canonicalName box) = true := by decide
  exact normalize_fill place (normalize_box (hname box hbox) u)

/-- A box that an alias names goes away inside an optional list, and so does another one around its
content. -/
theorem normalize_canonical_shared :
    let place : List Frame := [⟨"Option", [], .covariant, [], false, false⟩,
      ⟨"std::vec::Vec", [], .covariant, [], false, false⟩]
    let u := generic "std::sync::Arc" [named "jint"]
    fill place u = ⟨"Option", [.type .covariant ⟨"std::vec::Vec", [.type .covariant u],
        false, false⟩], false, false⟩ ∧
      "Rc" ∈ ["Box", "Rc", "Arc"] ∧
      (fill place u).normalize = { generic "Vec" [named "i32"] with nullable := true } ∧
      (fill place (generic "Rc" [u])).normalize = (fill place u).normalize := by
  intro place u
  refine ⟨rfl, by decide, by decide, ?_⟩
  exact ((normalize_canonical (fill place u)).2.2.2 place u rfl).2 "Rc" (by decide)

end DaoGen.TypeRef
