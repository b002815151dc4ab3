import DaoGen.Proofs.Emission.Layers
import DaoGen.Proofs.Emission.Rule
import Mathlib.Algebra.Order.BigOperators.Group.List
import Mathlib.Algebra.Order.Ring.Nat

/-!
# Conversions and normal forms

The conversion for a type follows the layers of the type, and the normal form drops some of them.
Both agree unless an optional layer is inside another one: the normal form has one mark for both,
and the conversion does not rebuild the inner layer.
-/
namespace DaoGen

open Code

namespace Conversion

open TypeRef

/-! ## Normal forms -/

variable {direction : Direction} {c : Conversion} {t : TypeRef}

/-- A conversion is of values with at least the layers of the normal form. -/
theorem Rule.size_le (h : Rule direction t c) {s : ValueType}
    (hs : Relates direction c s t.meaning) : (normalize t).meaning.size ≤ s.size := by
  induction h generalizing s with
  | carried hname _ ih =>
    rw [meaning_carried hname, relates_carried] at hs
    rw [normalize_carried hname]
    exact ih hs.1
  | option hname _ ih =>
    rw [meaning_option hname] at hs
    obtain ⟨inner, rfl, hinner⟩ := isMap_mapOption.exists_inner ValueType.option_injective hs
    have hle := ih hinner
    rw [meaning_normalize_option hname]
    split
    · simp only [ValueType.size_option]
      omega
    · simp only [ValueType.size_option]
      omega
  | vec hname _ ih =>
    rw [(meaning_vec hname).1] at hs
    obtain ⟨inner, rfl, hinner⟩ := isMap_mapList.exists_inner ValueType.vec_injective hs
    have hle := ih hinner
    rw [(meaning_vec hname).2, ValueType.size_vec, ValueType.size_vec]
    omega
  | nominal hnominal =>
    rw [meaning_nominal hnominal, relates_into hnominal] at hs
    obtain ⟨hargs, rfl⟩ := hs
    obtain rfl := List.map_eq_nil_iff.mp hargs
    rw [meaning_normalize_other fun h => absurd h (by decide)]
    exact Nat.le_refl _
  | other hnominal hname _ ih =>
    obtain rfl := relates_same.mp hs
    rw [meaning_normalize_other hname, meaning_other hnominal,
      ValueType.size_named, ValueType.size_named, List.map_map, List.map_map]
    refine Nat.add_le_add_left (List.sum_le_sum fun t ht => ?_) 1
    exact ih t ht (relates_same.mpr rfl)

/-- If a conversion is between the normal form and the type, all layers are kept. -/
theorem Rule.isRebuildable (h : Rule direction t c)
    (hrelates : Relates direction c (normalize t).meaning t.meaning) : t.isRebuildable = true := by
  induction h with
  | carried hname _ ih =>
    rw [meaning_carried hname, normalize_carried hname, relates_carried] at hrelates
    exact (isRebuildable_carried hname).mpr (ih hrelates.1)
  | option hname h ih =>
    rw [meaning_option hname, meaning_normalize_option hname] at hrelates
    obtain ⟨inner, heq, hinner⟩ :=
      isMap_mapOption.exists_inner ValueType.option_injective hrelates
    have hle := h.size_le hinner
    split at heq
    · -- the layer is dropped, and the normal form is too small for it
      have hsize := congrArg ValueType.size heq
      rw [ValueType.size_option] at hsize
      omega
    · next hnullable =>
      obtain rfl := ValueType.option_injective heq
      exact (isRebuildable_option hname).mpr ⟨by simpa using hnullable, ih hinner⟩
  | vec hname _ ih =>
    rw [(meaning_vec hname).1, (meaning_vec hname).2] at hrelates
    obtain ⟨inner, heq, hinner⟩ := isMap_mapList.exists_inner ValueType.vec_injective hrelates
    obtain rfl := ValueType.vec_injective heq
    exact (isRebuildable_vec hname).mpr (ih hinner)
  | nominal hnominal =>
    rw [meaning_nominal hnominal, relates_into hnominal] at hrelates
    exact (isRebuildable_nominal hnominal).mpr (List.map_eq_nil_iff.mp hrelates.1)
  | other hnominal hname _ ih =>
    rw [meaning_normalize_other hname, meaning_other hnominal,
      relates_same] at hrelates
    have hargs := List.map_inj_left.mp (ValueType.named.inj hrelates).2
    refine (isRebuildable_other hnominal hname).mpr fun t ht => ?_
    exact ih t ht (relates_same.mpr (hargs t ht))

/-- A type has a known size if its normal form has one. -/
theorem Rule.isSized (h : Rule direction t c) (hsize : (normalize t).meaning.isSized = true) :
    t.meaning.isSized = true := by
  cases h with
  | carried hname => rw [meaning_carried hname, Carrier.isSized_of]
  | option hname => rw [meaning_option hname, ValueType.isSized_option]
  | vec hname => rw [(meaning_vec hname).1, ValueType.isSized_vec]
  | nominal hnominal =>
    rw [meaning_nominal hnominal]
    exact ValueType.isSized_of_isNominal hnominal _
  | other hnominal hname =>
    rw [meaning_normalize_other hname] at hsize
    rw [meaning_other hnominal]
    exact hsize

/-- If all layers are kept and nothing is to be done, the normal form is the type. -/
theorem Rule.meaning_normalize (h : Rule direction t .same) (hkept : t.isRebuildable = true) :
    (normalize t).meaning = t.meaning := by
  generalize hc : Conversion.same = c at h
  induction h with
  | carried => cases direction <;> cases hc
  | @option name t c hname _ ih =>
    obtain ⟨hnullable, hinner⟩ := (isRebuildable_option hname).mp hkept
    have hsame : .same = c := by cases c <;> first | rfl | cases hc
    rw [meaning_option hname, meaning_normalize_option hname, hnullable, ih hinner hsame]
    rfl
  | @vec name t c hname _ ih =>
    have hsame : .same = c := by cases c <;> first | rfl | cases hc
    rw [(meaning_vec hname).1, (meaning_vec hname).2,
      ih ((isRebuildable_vec hname).mp hkept) hsame]
  | nominal => cases hc
  | other hnominal hname _ ih =>
    rw [meaning_normalize_other hname, meaning_other hnominal]
    refine congrArg (ValueType.named _) (List.map_inj_left.mpr fun t ht => ?_)
    exact ih t ht ((isRebuildable_other hnominal hname).mp hkept t ht) rfl

/-- If all layers are kept, a conversion is between the normal form, if it has values, and the
type. -/
theorem Rule.relates (h : Rule direction t c) (hkept : t.isRebuildable = true)
    (hvalue : (normalize t).meaning.isValue = true) :
    Relates direction c (normalize t).meaning t.meaning := by
  induction h with
  | carried hname h ih =>
    rw [normalize_carried hname] at hvalue ⊢
    rw [meaning_carried hname, relates_carried]
    exact ⟨ih ((isRebuildable_carried hname).mp hkept) hvalue,
      h.isSized (ValueType.isSized_of_isValue hvalue)⟩
  | option hname h ih =>
    obtain ⟨hnullable, hinner⟩ := (isRebuildable_option hname).mp hkept
    rw [meaning_normalize_option hname, hnullable] at hvalue ⊢
    rw [if_neg Bool.false_ne_true, ValueType.isValue_option] at hvalue
    have hsize := ValueType.isSized_of_isValue hvalue
    rw [meaning_option hname]
    exact isMap_mapOption.relates (ih hinner hvalue) hsize (h.isSized hsize)
  | vec hname h ih =>
    rw [(meaning_vec hname).2] at hvalue ⊢
    rw [ValueType.isValue_vec] at hvalue
    have hsize := ValueType.isSized_of_isValue hvalue
    rw [(meaning_vec hname).1]
    exact isMap_mapList.relates (ih ((isRebuildable_vec hname).mp hkept) hvalue) hsize
      (h.isSized hsize)
  | nominal hnominal =>
    obtain rfl := (isRebuildable_nominal hnominal).mp hkept
    rw [meaning_nominal hnominal, relates_into hnominal,
      meaning_normalize_other fun h => absurd h (by decide)]
    exact ⟨rfl, rfl⟩
  | other hnominal hname h =>
    have hrule : Rule direction _ .same := .other hnominal hname h
    exact relates_same.mpr (hrule.meaning_normalize hkept)

/-- Between a normal form with values and the type there is a conversion just if all layers are
kept. -/
theorem relates_iff_isRebuildable (hplain : t.Plain) (h : ofType direction t = .ok c)
    (hvalue : (normalize t).meaning.isValue = true) :
    Relates direction c (normalize t).meaning t.meaning ↔ t.isRebuildable = true := by
  have hrule := rule_of_ofType hplain h
  exact ⟨hrule.isRebuildable, fun hkept => hrule.relates hkept hvalue⟩

/-- The conversions of a written type, whenever the value to convert can exist. Into the declared
type, the converted value has that type just if the normal form keeps all layers; into the normal
form, it has that type just if this is so and the normal form has values. If nothing is to be done,
both are one type just if all layers are kept. -/
theorem hasType_iff_isRebuildable {syn : TypeSyntax} {t : TypeRef}
    (h : TypeRef.ofSyntax syn = .ok t) :
    (∀ c, ofType .toDeclared t = .ok c → (normalize t).meaning.isValue = true →
        (HasType [("value", (normalize t).meaning)] (c.apply (.var "value")) t.meaning ↔
          t.isRebuildable = true)) ∧
      (∀ c, ofType .toCanonical t = .ok c → t.meaning.isValue = true →
        (HasType [("value", t.meaning)] (c.apply (.var "value")) (normalize t).meaning ↔
          t.isRebuildable = true ∧ (normalize t).meaning.isValue = true)) ∧
      ∀ direction, ofType direction t = .ok .same →
        (t.meaning = (normalize t).meaning ↔ t.isRebuildable = true) := by
  have hplain := plain_of_ofSyntax syn h
  refine ⟨fun c hc hvalue => ?_, fun c hc hvalue => ?_, fun direction hc => ?_⟩
  · rw [hasType_apply_var]
    exact relates_iff_isRebuildable hplain hc hvalue
  · rw [hasType_apply_var]
    constructor
    · intro hmaps
      exact ⟨(rule_of_ofType hplain hc).isRebuildable hmaps, hmaps.isValue hvalue⟩
    · rintro ⟨hkept, hnormal⟩
      exact (relates_iff_isRebuildable hplain hc hnormal).mpr hkept
  · have hrule := rule_of_ofType hplain hc
    refine ⟨fun heq => hrule.isRebuildable (relates_same.mpr heq.symm), fun hkept => ?_⟩
    exact (hrule.meaning_normalize hkept).symm

/-- The items of a list are put into carriers. -/
theorem hasType_list_of_shared :
    let person : TypeSyntax := .named false ["Person"] []
    let shared : TypeSyntax := .named false ["std", "sync", "Arc"] [.type person]
    let t : TypeRef := .generic "Vec" [.generic "std::sync::Arc" [.named "Person"]]
    TypeRef.ofSyntax (.named false ["Vec"] [.type shared]) = .ok t ∧
      ofType .toDeclared t = .ok (.mapList (.wrap .arc .same)) ∧
      HasType [("value", (normalize t).meaning)]
        (Conversion.apply (.mapList (.wrap .arc .same)) (.var "value")) t.meaning := by
  intro person shared t
  have hsyn : TypeRef.ofSyntax (.named false ["Vec"] [.type shared]) = .ok t :=
    Except.toOption_eq_some.mp (by decide)
  have hc : ofType .toDeclared t = .ok (.mapList (.wrap .arc .same)) :=
    Except.toOption_eq_some.mp (by decide)
  have hvalue : (normalize t).meaning.isValue = true := by decide
  exact ⟨hsyn, hc, ((hasType_iff_isRebuildable hsyn).1 _ hc hvalue).mpr (by decide)⟩

/-- An optional value that is itself optional has one layer too few, and is left as it is. -/
theorem not_hasType_nested_option :
    let string : TypeSyntax := .named false ["String"] []
    let optional : TypeSyntax := .named false ["Option"] [.type string]
    let t : TypeRef := .generic "Option" [.generic "Option" [.named "String"]]
    TypeRef.ofSyntax (.named false ["Option"] [.type optional]) = .ok t ∧
      t.render = "Option<Option<String>>" ∧ (normalize t).render = "Option<String>" ∧
      ofType .toDeclared t = .ok .same ∧ ofType .toCanonical t = .ok .same ∧
      t.meaning ≠ (normalize t).meaning ∧ (normalize t).meaning.isValue = true ∧
      ¬ HasType [("value", (normalize t).meaning)] (Conversion.apply .same (.var "value"))
        t.meaning := by
  intro string optional t
  have hne : t.meaning ≠ (normalize t).meaning := fun h => by
    have hsize : t.meaning.size ≠ (normalize t).meaning.size := by decide
    exact hsize (congrArg ValueType.size h)
  refine ⟨Except.toOption_eq_some.mp ?_, ?_, ?_, Except.toOption_eq_some.mp ?_,
    Except.toOption_eq_some.mp ?_, hne, ?_, fun h => ?_⟩
  · decide
  · decide
  · decide
  · decide
  · decide
  · decide
  · exact hne (eq_of_hasType_same h).symm

end Conversion

end DaoGen
