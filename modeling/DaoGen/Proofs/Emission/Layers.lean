import DaoGen.Proofs.Emission.Typing
import DaoGen.Proofs.TypeRef.Plain

/-!
# Layers of types

The normal form of a type has no layer for a carrier, and one mark for an optional type with all
the optional types directly inside it. Each kind of layer has laws for the type and its normal
form: what they mean, and whether the layer can be rebuilt.
-/
namespace DaoGen

namespace TypeRef

/-- Whether the normal form keeps the outer layer of a type: an optional type inside an optional
one is lost, and the types that nominal aliases stand for have no arguments. -/
def keepsLayer (name : String) (args : List (TypeArg TypeRef)) : Bool :=
  if isNominal name then args.isEmpty
  else
    match args with
    | [.type _ inner] => !(canonicalName name == "Option" && (normalize inner).nullable)
    | _ => true

mutual

/-- Whether the normal form of a type keeps all of its layers. -/
def isRebuildable : TypeRef → Bool
  | ⟨name, args, _, _⟩ => keepsLayer name args && areRebuildable args

def areRebuildable : List (TypeArg TypeRef) → Bool
  | [] => true
  | arg :: rest => isRebuildableArg arg && areRebuildable rest

def isRebuildableArg : TypeArg TypeRef → Bool
  | .type _ ty => isRebuildable ty
  | .star => true

end

theorem keepsLayer_iff (name : String) (ts : List TypeRef) :
    keepsLayer name (ts.map (.type .invariant)) = true ↔
      (isNominal name = true → ts = []) ∧
        ∀ t, ts = [t] → canonicalName name = "Option" → (normalize t).nullable = false := by
  unfold keepsLayer
  cases hnominal : isNominal name with
  | true =>
    simp only [if_true, List.isEmpty_map, List.isEmpty_iff, forall_const]
    refine ⟨fun h => ⟨h, fun t ht => ?_⟩, And.left⟩
    cases h.symm.trans ht
  | false =>
    match ts with
    | [] => simp
    | [t] =>
      simp only [List.map_cons, List.map_nil, Bool.false_eq_true, if_false, Bool.not_eq_true',
        Bool.and_eq_false_iff, beq_eq_false_iff_ne, false_imp_iff, true_and, List.cons.injEq,
        and_true, forall_eq']
      exact imp_iff_not_or.symm
    | _ :: _ :: _ => simp

theorem isRebuildable_generic (name : String) (ts : List TypeRef) :
    (generic name ts).isRebuildable = true ↔
      ((isNominal name = true → ts = []) ∧
        ∀ t, ts = [t] → canonicalName name = "Option" → (normalize t).nullable = false) ∧
      ∀ t ∈ ts, t.isRebuildable = true := by
  have hargs : areRebuildable (ts.map (.type .invariant)) = ts.all isRebuildable := by
    induction ts with
    | nil => rfl
    | cons t rest ih => simp [areRebuildable, isRebuildableArg, ih]
  rw [← keepsLayer_iff]
  simp [generic, isRebuildable, hargs]

end TypeRef

/-! ## Meanings by rule -/

theorem Carrier.eq_name_of_ofName? {name : String} {carrier : Carrier}
    (h : ofName? name = some carrier) : name = carrier.name := by
  unfold ofName? at h
  split at h <;> cases h <;> rfl

theorem TypeRef.isBox_eq (name : String) : isBox name = (Carrier.ofName? name).isSome := by
  unfold Carrier.ofName?
  split <;> simp_all [isBox]

/-- A nominal alias is of none of the other common types. -/
theorem isNominal_eq_false {name : String} (h : canonicalName name ∉ wrappedNames) :
    isNominal name = false := by
  cases hnominal : isNominal name with
  | false => rfl
  | true => exact absurd (canonicalName_mem_wrappedNames hnominal) h

namespace TypeRef

variable {name : String} {t : TypeRef} {ts : List TypeRef}

theorem meaning_nominal (h : isNominal name = true) :
    (generic name ts).meaning = .named name (ts.map meaning) := by
  rw [meaning_generic, transparentName, if_pos h]

theorem meaning_other (h : isNominal name = false) :
    (generic name ts).meaning = .named (canonicalName name) (ts.map meaning) := by
  rw [meaning_generic, transparentName_eq h]

section Carried

variable {carrier : Carrier} (hname : Carrier.ofName? (canonicalName name) = some carrier)
include hname

theorem isNominal_of_carried : isNominal name = false := by
  refine isNominal_eq_false ?_
  rw [Carrier.eq_name_of_ofName? hname]
  cases carrier <;> decide

theorem isRebuildable_carried :
    (generic name [t]).isRebuildable = true ↔ t.isRebuildable = true := by
  have hoption : canonicalName name ≠ "Option" := by
    rw [Carrier.eq_name_of_ofName? hname]
    cases carrier <;> decide
  simp [isRebuildable_generic, isNominal_of_carried hname, hoption]

theorem meaning_carried : (generic name [t]).meaning = carrier.of t.meaning := by
  rw [meaning_other (isNominal_of_carried hname), Carrier.eq_name_of_ofName? hname]
  rfl

theorem normalize_carried : normalize (generic name [t]) = normalize t :=
  normalize_box (by rw [isBox_eq, hname, Option.isSome_some]) t

end Carried

section Optional

variable (hname : canonicalName name = "Option")
include hname

theorem isNominal_of_option : isNominal name = false :=
  isNominal_eq_false (by rw [hname]; decide)

theorem isRebuildable_option :
    (generic name [t]).isRebuildable = true ↔
      (normalize t).nullable = false ∧ t.isRebuildable = true := by
  simp [isRebuildable_generic, isNominal_of_option hname, hname]

theorem meaning_option : (generic name [t]).meaning = t.meaning.option := by
  rw [meaning_other (isNominal_of_option hname), hname]
  rfl

theorem meaning_normalize_option :
    (normalize (generic name [t])).meaning =
      if (normalize t).nullable then (normalize t).meaning else (normalize t).meaning.option := by
  rw [normalize_option hname, meaning_nullable]

end Optional

theorem meaning_normalize_other
    (hname : ts.length = 1 → Carrier.ofName? (canonicalName name) = none ∧
      canonicalName name ≠ "Option") :
    (normalize (generic name ts)).meaning =
      .named (canonicalName name) (ts.map fun t => (normalize t).meaning) := by
  have hbox (h : ts.length = 1) :
      isBox (canonicalName name) = false ∧ canonicalName name ≠ "Option" := by
    obtain ⟨hcarrier, hoption⟩ := hname h
    exact ⟨by rw [isBox_eq, hcarrier, Option.isSome_none], hoption⟩
  rw [normalize_other hbox, meaning_generic, transparentName_canonicalName, List.map_map]
  rfl

theorem isNominal_of_vec (hname : canonicalName name = "Vec") : isNominal name = false :=
  isNominal_eq_false (by rw [hname]; decide)

theorem meaning_vec (hname : canonicalName name = "Vec") :
    (generic name [t]).meaning = t.meaning.vec ∧
      (normalize (generic name [t])).meaning = (normalize t).meaning.vec := by
  have hother (_ : [t].length = 1) :
      Carrier.ofName? (canonicalName name) = none ∧ canonicalName name ≠ "Option" := by
    rw [hname]
    exact ⟨rfl, by decide⟩
  rw [meaning_other (isNominal_of_vec hname), meaning_normalize_other hother, hname]
  exact ⟨rfl, rfl⟩

theorem isRebuildable_vec (hname : canonicalName name = "Vec") :
    (generic name [t]).isRebuildable = true ↔ t.isRebuildable = true := by
  simp [isRebuildable_generic, isNominal_of_vec hname, hname]

theorem isRebuildable_nominal (hnominal : isNominal name = true) :
    (generic name ts).isRebuildable = true ↔ ts = [] := by
  rw [isRebuildable_generic]
  refine ⟨fun h => h.1.1 hnominal, ?_⟩
  rintro rfl
  refine ⟨⟨fun _ => rfl, fun t ht => ?_⟩, fun t ht => ?_⟩
  · cases ht
  · cases ht

theorem isRebuildable_other (hnominal : isNominal name = false)
    (hname : ts.length = 1 → Carrier.ofName? (canonicalName name) = none ∧
      canonicalName name ≠ "Option") :
    (generic name ts).isRebuildable = true ↔ ∀ t ∈ ts, t.isRebuildable = true := by
  rw [isRebuildable_generic]
  refine ⟨And.right, fun h => ⟨⟨fun hn => ?_, ?_⟩, h⟩⟩
  · cases hnominal.symm.trans hn
  · rintro t rfl hoption
    exact absurd hoption (hname rfl).2

end TypeRef

end DaoGen
