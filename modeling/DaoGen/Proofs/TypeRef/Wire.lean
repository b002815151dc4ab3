import DaoGen.Proofs.TypeRef.Canonical
import DaoGen.TypeRef.Wire

/-!
# Owned types at every place

What is sent is a value of its own: at no place of its type is there a reference, a slice, a text
slice or a projection. `wire` gives types of this form and leaves them as they are. It keeps the
places of a type and the marks of what stands there, but for arguments of a text slice, which has
none in source code.

## Main definitions

* `IsOwned`: types of this form.
* `typeAt?`: the type at a place.

## Main results

* `isOwned_wire`, `IsOwned.wire_eq`: the types that `wire` gives are those that it leaves alone.
* `typeAt?_wire`: what stands at a place of a type on the wire.
-/
namespace DaoGen.TypeRef

/-! ## The form of a node -/

/-- The outer layer of a type is that of values of their own, and its arguments are plain. -/
structure IsOwnedLayer (t : TypeRef) : Prop where
  not_reference : t.reference = false
  not_slice : t.isSlice = false
  not_text : t.name ≠ "str"
  plain_args : ∀ projection u, .type projection u ∈ t.args → projection = .invariant

/-- Every node of a type is that of values of their own. -/
def IsOwned (t : TypeRef) : Prop := t.Everywhere IsOwnedLayer

/-- A text slice has no arguments. -/
def HasBareText (t : TypeRef) : Prop := t.name = "str" → t.args = []

/-! ## One layer -/

variable {t : TypeRef}

@[simp] theorem nullable_wire (t : TypeRef) : t.wire.nullable = t.nullable := by
  obtain ⟨name, args, nullable, reference⟩ := t
  rw [wire]
  split
  · rfl
  · split <;> rfl

/-- Arguments stay at their positions. -/
theorem args_wire (h : t.HasBareText) : t.wire.args = t.args.map wireArg := by
  obtain ⟨name, args, nullable, reference⟩ := t
  rw [wire, wireArgs_eq_map]
  split
  · rfl
  · split
    · next hname =>
      obtain rfl : args = [] := h hname
      rfl
    · rfl

/-- The arguments of a type on the wire are plain, and types on the wire themselves. -/
theorem mem_args_wire {projection : Projection} {u : TypeRef}
    (h : .type projection u ∈ t.wire.args) :
    projection = .invariant ∧ ∃ projection' u', .type projection' u' ∈ t.args ∧ u'.wire = u := by
  by_cases hbare : t.HasBareText
  · rw [args_wire hbare] at h
    obtain ⟨arg, harg, heq⟩ := List.mem_map.mp h
    cases arg with
    | star => cases heq
    | type projection' u' =>
      cases heq
      exact ⟨rfl, projection', u', harg, rfl⟩
  · -- a text slice loses its arguments
    obtain ⟨hname, _⟩ := Classical.not_imp.mp hbare
    obtain ⟨name, args, nullable, reference⟩ := t
    obtain rfl : name = "str" := hname
    simp [wire] at h

theorem isOwnedLayer_wire (t : TypeRef) : t.wire.IsOwnedLayer := by
  have hplain : ∀ projection u, .type projection u ∈ t.wire.args → projection = .invariant :=
    fun _ _ hu => (mem_args_wire hu).1
  obtain ⟨name, args, nullable, reference⟩ := t
  rw [wire] at hplain ⊢
  by_cases hslice : name = "[]"
  · rw [if_pos hslice] at hplain ⊢
    exact ⟨rfl, rfl, by simp, hplain⟩
  · by_cases htext : name = "str"
    · rw [if_neg hslice, if_pos htext] at hplain ⊢
      exact ⟨rfl, rfl, by simp, hplain⟩
    · rw [if_neg hslice, if_neg htext] at hplain ⊢
      exact ⟨rfl, beq_false_of_ne hslice, htext, hplain⟩

/-- An owned layer is left alone if its arguments are. -/
theorem IsOwnedLayer.wire_eq (h : t.IsOwnedLayer)
    (hargs : ∀ projection u, .type projection u ∈ t.args → u.wire = u) : t.wire = t := by
  have hsame : ∀ arg ∈ t.args, wireArg arg = id arg := by
    intro arg harg
    cases arg with
    | star => rfl
    | type projection u => rw [wireArg, hargs projection u harg, h.plain_args projection u harg, id]
  obtain ⟨name, args, nullable, reference⟩ := t
  obtain ⟨hreference, hslice, htext, _⟩ := h
  obtain rfl : reference = false := hreference
  have hname : name ≠ "[]" := ne_of_beq_false hslice
  rw [wire, if_neg hname, if_neg htext, wireArgs_eq_map, List.map_congr_left hsame, List.map_id]

/-! ## All layers -/

theorem isOwned_wire (t : TypeRef) : t.wire.IsOwned := by
  induction t using induction_args with
  | step t ih =>
    refine everywhere_iff.mpr ⟨isOwnedLayer_wire t, fun projection u hu => ?_⟩
    obtain ⟨_, projection', u', hu', rfl⟩ := mem_args_wire hu
    exact ih projection' u' hu'

theorem IsOwned.wire_eq (h : t.IsOwned) : t.wire = t := by
  induction t using induction_args with
  | step t ih =>
    obtain ⟨hlayer, hargs⟩ := everywhere_iff.mp h
    exact hlayer.wire_eq fun projection u hu => ih projection u hu (hargs projection u hu)

/-! ## Places -/

/-- The type at a place, to which the positions of arguments lead. -/
def typeAt? : List Nat → TypeRef → Option TypeRef
  | [], t => some t
  | i :: path, t => (t.args[i]?.bind TypeArg.ty?).bind (typeAt? path)

/-- What stands at a place of a type on the wire is what stands there in the type, on the wire. -/
theorem typeAt?_wire (h : t.Everywhere HasBareText) (path : List Nat) :
    t.wire.typeAt? path = (t.typeAt? path).map wire := by
  induction path generalizing t with
  | nil => rfl
  | cons i path ih =>
    obtain ⟨hlayer, hargs⟩ := everywhere_iff.mp h
    rw [typeAt?, typeAt?, args_wire hlayer, List.getElem?_map]
    cases harg : t.args[i]? with
    | none => rfl
    | some arg =>
      cases arg with
      | star => rfl
      | type projection u => exact ih (hargs projection u (List.mem_of_getElem? harg))

/-- `wire` is a projection onto owned types. Its values have no reference, slice, text slice or
projection at any place, it has nothing left to do on them, and they are the types that it leaves
alone. If text slices have no arguments, the places of a type stay, stars stay stars, and whether a
value may be absent is the same at every place. -/
theorem wire_projection (t : TypeRef) :
    t.wire.IsOwned ∧ t.wire.wire = t.wire ∧ (t.wire = t ↔ t.IsOwned) ∧
      (t.Everywhere HasBareText → ∀ path,
        (t.wire.typeAt? path).map (·.nullable) = (t.typeAt? path).map (·.nullable)) := by
  have howned := isOwned_wire t
  refine ⟨howned, howned.wire_eq, ⟨fun h => h ▸ howned, IsOwned.wire_eq⟩, ?_⟩
  intro hbare path
  rw [typeAt?_wire hbare, Option.map_map]
  exact congrArg (Option.map · (t.typeAt? path)) (funext nullable_wire)

/-- A reference to a map from texts that may be absent to slices, with an unknown last argument. -/
theorem wire_projection_map :
    let text : TypeRef := ⟨"str", [], true, true⟩
    let t : TypeRef := ⟨"Map", [.type .covariant text, .type .invariant (slice text), .star],
      false, true⟩
    let owned : TypeRef := { named "String" with nullable := true }
    t.Everywhere HasBareText ∧
      t.wire = ⟨"Map", [.type .invariant owned, .type .invariant (generic "Vec" [owned]), .star],
        false, false⟩ ∧
      t.wire.wire = t.wire ∧ ¬ t.IsOwned ∧
      ∀ path ∈ [[], [0], [1], [1, 0], [2], [3]],
        (t.wire.typeAt? path).map (·.nullable) = (t.typeAt? path).map (·.nullable) := by
  intro text t owned
  have htext : text.Everywhere HasBareText := everywhere_iff.mpr ⟨fun _ => rfl, by simp [text]⟩
  have hslice : (slice text).Everywhere HasBareText := by
    refine everywhere_iff.mpr ⟨by simp [HasBareText, slice, generic], fun _ u hu => ?_⟩
    obtain rfl : u = text := by simp_all [slice, generic]
    exact htext
  have hbare : t.Everywhere HasBareText := by
    refine everywhere_iff.mpr ⟨by simp [HasBareText, t], fun _ u hu => ?_⟩
    obtain rfl | rfl : u = text ∨ u = slice text := by simp_all [t]; tauto
    · exact htext
    · exact hslice
  obtain ⟨_, hwire, hsame, hmarks⟩ := wire_projection t
  refine ⟨hbare, by decide, hwire, ?_, fun path _ => hmarks hbare path⟩
  rw [← hsame]
  decide

end DaoGen.TypeRef
