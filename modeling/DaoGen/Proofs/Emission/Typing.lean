import DaoGen.Emission.Conversion
import DaoGen.Proofs.TypeRef.Meaning

/-!
# Types of conversions

Generated conversions are made of a few kinds of calls, and `HasType` gives the types of those. It
says nothing about the traits that the called functions ask of a type, but that its values have a
known size. A conversion is typed on its own by `Conversion.Maps`, and its expression has the types
that the conversion has.
-/
namespace DaoGen

open Code

/-- The name of the type of carriers. -/
def Carrier.name : Carrier → String
  | .box => "Box"
  | .rc => "Rc"
  | .arc => "Arc"

/-- The type of a carrier with its content. -/
def Carrier.of (carrier : Carrier) (t : ValueType) : ValueType := .named carrier.name [t]

@[simp] theorem Carrier.isSized_of (carrier : Carrier) (t : ValueType) :
    (carrier.of t).isSized = true := by
  have hsize : isUnsizedName (canonicalName carrier.name) = false := by
    cases carrier <;> decide
  simp [of, ValueType.isSized, hsize]

@[simp] theorem Carrier.isWellFormed_of (carrier : Carrier) (t : ValueType) :
    (carrier.of t).isWellFormed = t.isWellFormed := by
  cases carrier <;> simp [of, name, ValueType.isWellFormed, ValueType.areWellFormed]

theorem Carrier.of_inj {carrier : Carrier} {t u : ValueType} :
    carrier.of t = carrier.of u ↔ t = u := by
  simp [Carrier.of]

/-- Values of nominal aliases are converted into values of the common type, and back. -/
inductive ValueType.Into : ValueType → ValueType → Prop where
  | ofNominal {name : String} (h : isNominal name = true) :
    Into (.named name []) (.named (canonicalName name) [])
  | toNominal {name : String} (h : isNominal name = true) :
    Into (.named (canonicalName name) []) (.named name [])

namespace Code

/-- The type of an expression, given those of the local names. -/
inductive HasType : List (String × ValueType) → Expr → ValueType → Prop where
  | var {Γ x t} (h : Γ.lookup x = some t) : HasType Γ (.var x) t
  | deref {Γ e t} (h : HasType Γ e (Carrier.box.of t)) (hsize : t.isSized = true) :
    HasType Γ (.deref e) t
  | new {Γ e t} (carrier : Carrier) (h : HasType Γ e t) (hsize : t.isSized = true) :
    HasType Γ (.call (member carrier.path "new") [e]) (carrier.of t)
  | unwrapOrClone {Γ e t} {carrier : Carrier} (hc : carrier ≠ .box)
    (h : HasType Γ e (carrier.of t)) (hsize : t.isSized = true) :
    HasType Γ (.call (member carrier.path "unwrap_or_clone") [e]) t
  | into {Γ e s t} (h : HasType Γ e s) (hinto : s.Into t) :
    HasType Γ (.call (absolutePath ["core", "convert", "Into", "into"]) [e]) t
  | mapOption {Γ e x body s t} (h : HasType Γ e (.option s)) (hs : s.isSized = true)
    (hbody : HasType ((x, s) :: Γ) body t) (ht : t.isSized = true) :
    HasType Γ (.mapped e x body) (.option t)
  | mapList {Γ e x body s t} (h : HasType Γ e (.vec s)) (hs : s.isSized = true)
    (hbody : HasType ((x, s) :: Γ) body t) (ht : t.isSized = true) :
    HasType Γ (.collected (.mapped (.invoke e "into_iter" []) x body)) (.vec t)

variable {Γ : List (String × ValueType)} {e : Expr} {t : ValueType}

theorem hasType_var {x : String} : HasType Γ (.var x) t ↔ Γ.lookup x = some t := by
  refine ⟨fun h => ?_, .var⟩
  cases h with
  | var h => exact h

theorem hasType_deref :
    HasType Γ (.deref e) t ↔ HasType Γ e (Carrier.box.of t) ∧ t.isSized = true := by
  refine ⟨fun h => ?_, fun h => .deref h.1 h.2⟩
  cases h with
  | deref h hsize => exact ⟨h, hsize⟩

/-- The functions that are called. -/
theorem HasType.of_call {function : List Token} (h : HasType Γ (.call function [e]) t) :
    (∃ carrier u, function = member (Carrier.path carrier) "new" ∧ HasType Γ e u ∧
        u.isSized = true ∧ t = carrier.of u) ∨
      (∃ carrier, function = member (Carrier.path carrier) "unwrap_or_clone" ∧
        HasType Γ e (carrier.of t) ∧ t.isSized = true) ∨
      (function = absolutePath ["core", "convert", "Into", "into"] ∧
        ∃ s, HasType Γ e s ∧ s.Into t) := by
  cases h with
  | new carrier h hsize => exact .inl ⟨carrier, _, rfl, h, hsize, rfl⟩
  | unwrapOrClone hc h hsize => exact .inr (.inl ⟨_, rfl, h, hsize⟩)
  | into h hinto => exact .inr (.inr ⟨rfl, _, h, hinto⟩)

/-- A function of a carrier is one of no other carrier and of no other name. -/
theorem member_path_inj {carrier carrier' : Carrier} {name name' : String} :
    member carrier.path name = member carrier'.path name' ↔ carrier = carrier' ∧ name = name' := by
  cases carrier <;> cases carrier' <;> simp [Carrier.path, member, absolutePath, path, words]

theorem member_path_ne_into {carrier : Carrier} {name : String} :
    member carrier.path name ≠ absolutePath ["core", "convert", "Into", "into"] := by
  cases carrier <;> simp [Carrier.path, member, absolutePath, path, words]

theorem hasType_new {carrier : Carrier} :
    HasType Γ (.call (member carrier.path "new") [e]) t ↔
      ∃ u, HasType Γ e u ∧ u.isSized = true ∧ t = carrier.of u := by
  constructor
  · intro h
    rcases h.of_call with ⟨_, u, hpath, hu⟩ | ⟨_, hpath, _⟩ | ⟨hpath, _⟩
    · obtain ⟨rfl, _⟩ := member_path_inj.mp hpath
      exact ⟨u, hu⟩
    · exact absurd (member_path_inj.mp hpath).2 (by decide)
    · exact absurd hpath member_path_ne_into
  · rintro ⟨u, hu, hsize, rfl⟩
    exact .new carrier hu hsize

theorem hasType_into :
    HasType Γ (.call (absolutePath ["core", "convert", "Into", "into"]) [e]) t ↔
      ∃ s, HasType Γ e s ∧ s.Into t := by
  constructor
  · intro h
    rcases h.of_call with ⟨_, _, hpath, _⟩ | ⟨_, hpath, _⟩ | ⟨_, hinto⟩
    · exact absurd hpath.symm member_path_ne_into
    · exact absurd hpath.symm member_path_ne_into
    · exact hinto
  · rintro ⟨s, hs, hinto⟩
    exact .into hs hinto

/-- What is taken out of a carrier is its content. -/
theorem hasType_unwrapped {carrier : Carrier} :
    HasType Γ (Conversion.unwrapped carrier e) t ↔
      HasType Γ e (carrier.of t) ∧ t.isSized = true := by
  have hcall (hc : carrier ≠ .box) :
      HasType Γ (.call (member carrier.path "unwrap_or_clone") [e]) t ↔
        HasType Γ e (carrier.of t) ∧ t.isSized = true := by
    refine ⟨fun h => ?_, fun h => .unwrapOrClone hc h.1 h.2⟩
    rcases h.of_call with ⟨_, _, hpath, _⟩ | ⟨_, hpath, h⟩ | ⟨hpath, _⟩
    · exact absurd (member_path_inj.mp hpath).2 (by decide)
    · obtain ⟨rfl, _⟩ := member_path_inj.mp hpath
      exact h
    · exact absurd hpath member_path_ne_into
  cases carrier with
  | box => exact hasType_deref
  | rc => exact hcall nofun
  | arc => exact hcall nofun

theorem hasType_mapOption {x : String} {body : Expr} :
    HasType Γ (.mapped e x body) t ↔
      ∃ s u, HasType Γ e (.option s) ∧ s.isSized = true ∧ HasType ((x, s) :: Γ) body u ∧
        u.isSized = true ∧ t = .option u := by
  constructor
  · intro h
    generalize he : Expr.mapped e x body = whole at h
    cases h with
    | mapOption h hs hbody ht =>
      simp only [Expr.mapped, Expr.invoke, Expr.method.injEq, Expr.closure.injEq, List.cons.injEq,
        and_true, true_and] at he
      obtain ⟨rfl, rfl, rfl⟩ := he
      exact ⟨_, _, h, hs, hbody, ht, rfl⟩
    | _ => simp [Expr.mapped, Expr.collected, Expr.invoke] at he
  · rintro ⟨s, u, h, hs, hbody, hu, rfl⟩
    exact .mapOption h hs hbody hu

theorem hasType_mapList {x : String} {body : Expr} :
    HasType Γ (.collected (.mapped (.invoke e "into_iter" []) x body)) t ↔
      ∃ s u, HasType Γ e (.vec s) ∧ s.isSized = true ∧ HasType ((x, s) :: Γ) body u ∧
        u.isSized = true ∧ t = .vec u := by
  constructor
  · intro h
    generalize he : Expr.collected (.mapped (.invoke e "into_iter" []) x body) = whole at h
    cases h with
    | mapList h hs hbody ht =>
      simp only [Expr.collected, Expr.mapped, Expr.invoke, Expr.method.injEq, Expr.closure.injEq,
        List.cons.injEq, and_true, true_and] at he
      obtain ⟨rfl, rfl, rfl⟩ := he
      exact ⟨_, _, h, hs, hbody, ht, rfl⟩
    | _ => simp [Expr.mapped, Expr.collected, Expr.invoke] at he
  · rintro ⟨s, u, h, hs, hbody, hu, rfl⟩
    exact .mapList h hs hbody hu

end Code

/-! ## Conversions -/

namespace Conversion

/-- The types between which a conversion converts. -/
inductive Maps : Conversion → ValueType → ValueType → Prop where
  | same {t} : Maps .same t t
  | wrap {carrier inner s t} (h : Maps inner s t) (ht : t.isSized = true) :
    Maps (.wrap carrier inner) s (carrier.of t)
  | unwrap {carrier inner s t} (hs : s.isSized = true) (h : Maps inner s t) :
    Maps (.unwrap carrier inner) (carrier.of s) t
  | mapOption {inner s t} (hs : s.isSized = true) (h : Maps inner s t) (ht : t.isSized = true) :
    Maps (.mapOption inner) (.option s) (.option t)
  | mapList {inner s t} (hs : s.isSized = true) (h : Maps inner s t) (ht : t.isSized = true) :
    Maps (.mapList inner) (.vec s) (.vec t)
  | into {s t} (h : s.Into t) : Maps .into s t

/-- What is converted from a value is a value. -/
theorem Maps.isValue {c : Conversion} {s t : ValueType} (h : c.Maps s t) (hs : s.isValue = true) :
    t.isValue = true := by
  induction h with
  | same => exact hs
  | wrap _ ht ih =>
    have hwell := ih hs
    simp only [ValueType.isValue, Bool.and_eq_true] at hwell
    simp [ValueType.isValue, hwell]
  | unwrap hsize _ ih =>
    refine ih ?_
    simpa [ValueType.isValue, hsize] using hs
  | mapOption _ _ _ ih => simpa using ih (by simpa using hs)
  | mapList _ _ _ ih => simpa using ih (by simpa using hs)
  | into h =>
    cases h with
    | ofNominal hname => exact (ValueType.isValue_of_isNominal hname).2
    | toNominal hname => exact (ValueType.isValue_of_isNominal hname).1

/-- Under a binder, the converted variable has the types that the conversion has. -/
theorem hasType_apply_head {c : Conversion}
    (hc : ∀ {Γ e t}, HasType Γ (c.apply e) t ↔ ∃ s, HasType Γ e s ∧ c.Maps s t)
    {Γ : List (String × ValueType)} {x : String} {s t : ValueType} :
    HasType ((x, s) :: Γ) (c.apply (.var x)) t ↔ c.Maps s t := by
  rw [hc]
  constructor
  · rintro ⟨s', hs', hmaps⟩
    obtain rfl : s = s' := by simpa [hasType_var] using hs'
    exact hmaps
  · intro hmaps
    exact ⟨s, hasType_var.mpr List.lookup_cons_self, hmaps⟩

/-- The converted value has a type just if the conversion maps the type of the value to it. -/
theorem hasType_apply {c : Conversion} {Γ : List (String × ValueType)} {e : Expr} {t : ValueType} :
    HasType Γ (c.apply e) t ↔ ∃ s, HasType Γ e s ∧ c.Maps s t := by
  induction c generalizing Γ e t with
  | same =>
    refine ⟨fun h => ⟨t, h, .same⟩, ?_⟩
    rintro ⟨s, hs, hmaps⟩
    cases hmaps with
    | same => exact hs
  | wrap carrier inner ih =>
    rw [apply, hasType_new]
    constructor
    · rintro ⟨u, hu, hsize, rfl⟩
      obtain ⟨s, hs, hmaps⟩ := ih.mp hu
      exact ⟨s, hs, .wrap hmaps hsize⟩
    · rintro ⟨s, hs, hmaps⟩
      cases hmaps with
      | wrap hmaps hsize => exact ⟨_, ih.mpr ⟨s, hs, hmaps⟩, hsize, rfl⟩
  | unwrap carrier inner ih =>
    rw [apply, ih]
    constructor
    · rintro ⟨s, hs, hmaps⟩
      obtain ⟨hs, hsize⟩ := hasType_unwrapped.mp hs
      exact ⟨_, hs, .unwrap hsize hmaps⟩
    · rintro ⟨s, hs, hmaps⟩
      cases hmaps with
      | unwrap hsize hmaps => exact ⟨_, hasType_unwrapped.mpr ⟨hs, hsize⟩, hmaps⟩
  | mapOption inner ih =>
    rw [apply, hasType_mapOption]
    constructor
    · rintro ⟨s, u, h, hs, hbody, hu, rfl⟩
      exact ⟨_, h, .mapOption hs ((hasType_apply_head ih).mp hbody) hu⟩
    · rintro ⟨s, h, hmaps⟩
      cases hmaps with
      | mapOption hs hmaps hu => exact ⟨_, _, h, hs, (hasType_apply_head ih).mpr hmaps, hu, rfl⟩
  | mapList inner ih =>
    rw [apply, hasType_mapList]
    constructor
    · rintro ⟨s, u, h, hs, hbody, hu, rfl⟩
      exact ⟨_, h, .mapList hs ((hasType_apply_head ih).mp hbody) hu⟩
    · rintro ⟨s, h, hmaps⟩
      cases hmaps with
      | mapList hs hmaps hu => exact ⟨_, _, h, hs, (hasType_apply_head ih).mpr hmaps, hu, rfl⟩
  | into =>
    rw [apply, hasType_into]
    constructor
    · rintro ⟨s, hs, hinto⟩
      exact ⟨s, hs, .into hinto⟩
    · rintro ⟨s, hs, hmaps⟩
      cases hmaps with
      | into hinto => exact ⟨s, hs, hinto⟩

/-- The converted value of a variable. -/
theorem hasType_apply_var {c : Conversion} {x : String} {s t : ValueType} :
    HasType [(x, s)] (c.apply (.var x)) t ↔ c.Maps s t := hasType_apply_head hasType_apply

theorem eq_of_hasType_same {x : String} {s t : ValueType}
    (h : HasType [(x, s)] (Conversion.same.apply (.var x)) t) : s = t := by
  cases hasType_apply_var.mp h with
  | same => rfl

end Conversion

end DaoGen
