import DaoGen.Proofs.Emission.Typing
import DaoGen.Proofs.TypeRef.Plain

/-!
# Rules of conversions

The conversion for a type is chosen by the common name of the type. Each choice is a rule, and each
kind of conversion relates two types in both directions.
-/
namespace DaoGen

open Code

namespace Conversion

/-! ## Rules -/

/-- The conversion for a type, by the rule for its common name. -/
inductive Rule (direction : Direction) : TypeRef → Conversion → Prop where
  | carried {name carrier t c} (hname : Carrier.ofName? (canonicalName name) = some carrier)
    (h : Rule direction t c) : Rule direction (.generic name [t]) (carried direction carrier c)
  | option {name t c} (hname : canonicalName name = "Option") (h : Rule direction t c) :
    Rule direction (.generic name [t]) (mapUnlessSame .mapOption c)
  | vec {name t c} (hname : canonicalName name = "Vec") (h : Rule direction t c) :
    Rule direction (.generic name [t]) (mapUnlessSame .mapList c)
  | nominal {name ts} (hnominal : isNominal name = true) : Rule direction (.generic name ts) .into
  | other {name ts} (hnominal : isNominal name = false)
    (hname : ts.length = 1 →
      Carrier.ofName? (canonicalName name) = none ∧ canonicalName name ≠ "Option")
    (h : ∀ t ∈ ts, Rule direction t .same) : Rule direction (.generic name ts) .same

theorem ofType_generic (direction : Direction) (name : String) (ts : List TypeRef) :
    ofType direction (.generic name ts) =
      ofParts direction (.generic name ts) (ts.map (ofType direction)) := by
  have hargs : ofArgs direction (ts.map (.type .invariant)) = ts.map (ofType direction) := by
    induction ts with
    | nil => rfl
    | cons t rest ih => simp [ofArgs, ofArg, ih]
  simp [TypeRef.generic, ofType, hargs]

/-- There is no conversion for a type without a rule unless its arguments stay the same. -/
theorem ofOther_ok {declared : TypeRef} {args : List (Except TypeRef Conversion)} {c : Conversion}
    (h : ofOther declared args = .ok c) : c = .same ∧ ∀ arg ∈ args, arg = .ok .same := by
  induction args with
  | nil =>
    cases h
    exact ⟨rfl, nofun⟩
  | cons arg rest ih =>
    obtain ⟨c', rfl, h⟩ := Except.bind_eq_ok.mp h
    cases c' with
    | same =>
      obtain ⟨rfl, hrest⟩ := ih h
      refine ⟨rfl, fun arg harg => ?_⟩
      rcases List.mem_cons.mp harg with rfl | harg
      · rfl
      · exact hrest arg harg
    | _ => cases h

/-- The rules for types with one argument. -/
theorem ofParts_single (direction : Direction) (name : String) (t : TypeRef)
    (arg : Except TypeRef Conversion) :
    ofParts direction (.generic name [t]) [arg] =
      match Carrier.ofName? (canonicalName name) with
      | some carrier => arg.map (carried direction carrier)
      | none =>
        if canonicalName name = "Option" then arg.map (mapUnlessSame .mapOption)
        else if canonicalName name = "Vec" then arg.map (mapUnlessSame .mapList)
        else if isNominal name then .ok .into
        else ofOther (.generic name [t]) [arg] := by
  unfold ofParts
  dsimp only [TypeRef.generic, isNominal]
  cases Carrier.ofName? (canonicalName name) with
  | none => rfl
  | some carrier => rfl

/-- The rules for types with any other number of arguments. -/
theorem ofParts_of_length_ne {ts : List TypeRef} (hlength : ts.length ≠ 1) (direction : Direction)
    (name : String) (f : TypeRef → Except TypeRef Conversion) :
    ofParts direction (.generic name ts) (ts.map f) =
      if isNominal name then .ok .into else ofOther (.generic name ts) (ts.map f) := by
  match ts with
  | [] => rfl
  | [_] => exact absurd rfl hlength
  | _ :: _ :: _ => rfl

/-- A conversion for a written type is that of its rule. -/
theorem rule_of_ofType {direction : Direction} {t : TypeRef} (hplain : t.Plain) {c : Conversion}
    (h : ofType direction t = .ok c) : Rule direction t c := by
  induction hplain generalizing c with
  | mk name ts reference _ ih =>
    cases reference with
    | true => simp [TypeRef.generic, ofType] at h
    | false =>
      change ofType direction (.generic name ts) = .ok c at h
      change Rule direction (.generic name ts) c
      have hother (hnominal : isNominal name = false)
          (hname : ts.length = 1 →
            Carrier.ofName? (canonicalName name) = none ∧ canonicalName name ≠ "Option")
          (h : ofOther (.generic name ts) (ts.map (ofType direction)) = .ok c) :
          Rule direction (.generic name ts) c := by
        obtain ⟨rfl, hsame⟩ := ofOther_ok h
        exact .other hnominal hname fun t ht => ih t ht (hsame _ (List.mem_map_of_mem ht))
      rw [ofType_generic] at h
      by_cases hlength : ts.length = 1
      · obtain ⟨t, rfl⟩ := List.length_eq_one_iff.mp hlength
        have iht (inner : Conversion) (h : ofType direction t = .ok inner) :=
          ih t List.mem_cons_self h
        rw [List.map_cons, List.map_nil, ofParts_single] at h
        split at h
        · next carrier hcarrier =>
          obtain ⟨inner, hinner, rfl⟩ := Except.map_eq_ok.mp h
          exact .carried hcarrier (iht _ hinner)
        · next hcarrier =>
          split at h
          · next hoption =>
            obtain ⟨inner, hinner, rfl⟩ := Except.map_eq_ok.mp h
            exact .option hoption (iht _ hinner)
          · next hoption =>
            split at h
            · next hvec =>
              obtain ⟨inner, hinner, rfl⟩ := Except.map_eq_ok.mp h
              exact .vec hvec (iht _ hinner)
            · split at h
              · next hnominal =>
                cases h
                exact .nominal hnominal
              · next hnominal =>
                exact hother (by simpa using hnominal) (fun _ => ⟨hcarrier, hoption⟩) h
      · rw [ofParts_of_length_ne hlength] at h
        split at h
        · next hnominal =>
          cases h
          exact .nominal hnominal
        · next hnominal =>
          exact hother (by simpa using hnominal) (fun h => absurd h hlength) h

/-! ## Both directions -/

/-- A conversion in one of the directions, between a normal form and a declared type. -/
def Relates (direction : Direction) (c : Conversion) (normal declared : ValueType) : Prop :=
  match direction with
  | .toDeclared => c.Maps normal declared
  | .toCanonical => c.Maps declared normal

variable {direction : Direction} {c : Conversion} {normal declared : ValueType}

theorem relates_same : Relates direction .same normal declared ↔ normal = declared := by
  cases direction with
  | toDeclared => exact ⟨fun h => by cases h; rfl, fun h => h ▸ .same⟩
  | toCanonical => exact ⟨fun h => by cases h; rfl, fun h => h ▸ .same⟩

theorem relates_carried {carrier : Carrier} :
    Relates direction (carried direction carrier c) normal (carrier.of declared) ↔
      Relates direction c normal declared ∧ declared.isSized = true := by
  cases direction with
  | toDeclared =>
    refine ⟨fun h => ?_, fun h => Maps.wrap h.1 h.2⟩
    generalize ht : carrier.of declared = t at h
    cases h with
    | wrap h hsize => exact Carrier.of_inj.mp ht ▸ ⟨h, hsize⟩
  | toCanonical =>
    refine ⟨fun h => ?_, fun h => Maps.unwrap h.2 h.1⟩
    generalize ht : carrier.of declared = t at h
    cases h with
    | unwrap hsize h => exact Carrier.of_inj.mp ht ▸ ⟨h, hsize⟩

section Layers

variable {map : Conversion → Conversion} {layer : ValueType → ValueType}

/-- A conversion that is made of conversions of the items of something. -/
def IsMap (map : Conversion → Conversion) (layer : ValueType → ValueType) : Prop :=
  ∀ c s t, (map c).Maps s t ↔
    ∃ s' t', s = layer s' ∧ t = layer t' ∧ Maps c s' t' ∧ s'.isSized = true ∧ t'.isSized = true

theorem isMap_mapOption : IsMap .mapOption .option := by
  intro c s t
  constructor
  · intro h
    cases h with
    | mapOption hs h ht => exact ⟨_, _, rfl, rfl, h, hs, ht⟩
  · rintro ⟨s', t', rfl, rfl, h, hs, ht⟩
    exact .mapOption hs h ht

theorem isMap_mapList : IsMap .mapList .vec := by
  intro c s t
  constructor
  · intro h
    cases h with
    | mapList hs h ht => exact ⟨_, _, rfl, rfl, h, hs, ht⟩
  · rintro ⟨s', t', rfl, rfl, h, hs, ht⟩
    exact .mapList hs h ht

theorem mapUnlessSame_of_ne (hc : c ≠ .same) : mapUnlessSame map c = map c := by
  cases c <;> first | rfl | contradiction

/-- Something is converted by a conversion of its items. -/
theorem IsMap.exists_inner (hmap : IsMap map layer) (hlayer : Function.Injective layer)
    (h : Relates direction (mapUnlessSame map c) normal (layer declared)) :
    ∃ inner, normal = layer inner ∧ Relates direction c inner declared := by
  by_cases hc : c = .same
  · subst hc
    exact ⟨declared, relates_same.mp h, relates_same.mpr rfl⟩
  · rw [mapUnlessSame_of_ne hc] at h
    cases direction with
    | toDeclared =>
      obtain ⟨s, t, hs, ht, h, _⟩ := (hmap _ _ _).mp h
      exact ⟨s, hs, hlayer ht ▸ h⟩
    | toCanonical =>
      obtain ⟨s, t, hs, ht, h, _⟩ := (hmap _ _ _).mp h
      exact ⟨t, ht, hlayer hs ▸ h⟩

theorem IsMap.relates (hmap : IsMap map layer) (h : Relates direction c normal declared)
    (hnormal : normal.isSized = true) (hdeclared : declared.isSized = true) :
    Relates direction (mapUnlessSame map c) (layer normal) (layer declared) := by
  by_cases hc : c = .same
  · subst hc
    exact relates_same.mpr (congrArg layer (relates_same.mp h))
  · rw [mapUnlessSame_of_ne hc]
    cases direction with
    | toDeclared => exact (hmap _ _ _).mpr ⟨_, _, rfl, rfl, h, hnormal, hdeclared⟩
    | toCanonical => exact (hmap _ _ _).mpr ⟨_, _, rfl, rfl, h, hdeclared, hnormal⟩

end Layers

/-- A nominal alias is converted if it has no arguments, from or into the common type. -/
theorem relates_into {name : String} (hname : isNominal name = true) {args : List ValueType} :
    Relates direction .into normal (.named name args) ↔
      args = [] ∧ normal = .named (canonicalName name) [] := by
  have hinto : ∀ {s t : ValueType}, Maps .into s t ↔ s.Into t :=
    ⟨fun h => by cases h with | into h => exact h, .into⟩
  have hne : ∀ {name'}, name ≠ canonicalName name' := fun h => by
    rw [h, isNominal_canonicalName] at hname
    cases hname
  cases direction with
  | toDeclared =>
    simp only [Relates, hinto]
    constructor
    · intro h
      generalize ht : ValueType.named name args = t at h
      cases h with
      | ofNominal => exact absurd (ValueType.named.inj ht).1 hne
      | toNominal =>
        obtain ⟨rfl, rfl⟩ := ValueType.named.inj ht
        exact ⟨rfl, rfl⟩
    · rintro ⟨rfl, rfl⟩
      exact .toNominal hname
  | toCanonical =>
    simp only [Relates, hinto]
    constructor
    · intro h
      generalize ht : ValueType.named name args = t at h
      cases h with
      | ofNominal =>
        obtain ⟨rfl, rfl⟩ := ValueType.named.inj ht
        exact ⟨rfl, rfl⟩
      | toNominal => exact absurd (ValueType.named.inj ht).1 hne
    · rintro ⟨rfl, rfl⟩
      exact .ofNominal hname

end Conversion

end DaoGen
