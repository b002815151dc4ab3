import DaoGen.Declaration.Collection
import DaoGen.Proofs.Emission.Contract
import DaoGen.Proofs.TypeRef.Meaning
import DaoGen.Proofs.TypeRef.Plain

/-!
# Types of arguments

A handler makes the arguments of its call from the fields of the request, whose types are on the
wire. Only the outermost layer of a type, or the one below an `Option`, is borrowed again, and a
number is passed wherever the normal form of the type is an integer.

## Main definitions

* `Code.Gives`: the types of the expressions that arguments are made of.
* `TypeRef.isSent`, `TypeRef.isLent`, `TypeRef.IsPassable`: types whose values can be passed.
* `Emission.ArgumentFits`: when an argument has the type of its parameter.

## Main results

* `Emission.fits_passed`: an argument has the declared type just if values of that can be passed.
* `Emission.Endpoint.arguments_fit`: when the arguments of a handler have the declared types.
-/
namespace DaoGen

/-! ## Expressions -/

namespace ValueType

/-- What a reference to a text or a list is turned into where another type is expected. -/
inductive Derefs : ValueType → ValueType → Prop where
  | text : Derefs (.named "String" []) (.named "str" [])
  | list {ts : List ValueType} : Derefs (.named "Vec" ts) (.named "[]" ts)

theorem derefs_iff {s t : ValueType} : s.Derefs t ↔
    (s = .named "String" [] ∧ t = .named "str" []) ∨
      ∃ ts, s = .named "Vec" ts ∧ t = .named "[]" ts := by
  constructor
  · rintro (_ | _)
    · exact .inl ⟨rfl, rfl⟩
    · exact .inr ⟨_, rfl, rfl⟩
  · rintro (⟨rfl, rfl⟩ | ⟨ts, rfl, rfl⟩)
    · exact .text
    · exact .list

/-- A value of the first type can be given where the second one is expected. -/
inductive Coerces : ValueType → ValueType → Prop where
  | same {t : ValueType} : Coerces t t
  | deref {s t : ValueType} (h : s.Derefs t) : Coerces (.ref s) (.ref t)

end ValueType

namespace Code

/-- The type of an expression that an argument is made of, given those of the local names. A small
number is one of each integer type. -/
inductive Gives : List (String × ValueType) → Expr → ValueType → Prop where
  | var {Γ x t} (h : Γ.lookup x = some t) (hvalue : t.isValue = true) : Gives Γ (.var x) t
  | borrow {Γ e t} (h : Gives Γ e t) : Gives Γ (.borrow e) (.ref t)
  | asRef {Γ e t} (h : Gives Γ e (.option t)) :
    Gives Γ (.invoke e "as_ref" []) (.option (.ref t))
  | asDeref {Γ e s t} (h : Gives Γ e (.option s)) (hderef : s.Derefs t) :
    Gives Γ (.invoke e "as_deref" []) (.option (.ref t))
  | number {Γ n name} (hn : n < 128) (hname : name ∈ TypeRef.integerNames) :
    Gives Γ (.number n) (.named name [])

/-- An expression can be given as an argument of a declared type. -/
def Fits (Γ : List (String × ValueType)) (e : Expr) (t : ValueType) : Prop :=
  ∃ s, Gives Γ e s ∧ s.Coerces t

section Inversion

variable {Γ : List (String × ValueType)} {e : Expr} {x : String} {s t : ValueType}

theorem gives_var : Gives [(x, s)] (.var x) t ↔ t = s ∧ s.isValue = true := by
  constructor
  · intro h
    cases h with
    | var h hvalue =>
      obtain rfl : s = t := by simpa using h
      exact ⟨rfl, hvalue⟩
  · rintro ⟨rfl, hvalue⟩
    exact .var List.lookup_cons_self hvalue

theorem gives_borrow : Gives Γ (.borrow e) t ↔ ∃ u, Gives Γ e u ∧ t = .ref u := by
  constructor
  · intro h
    cases h with
    | borrow h => exact ⟨_, h, rfl⟩
  · rintro ⟨u, h, rfl⟩
    exact .borrow h

theorem gives_asRef :
    Gives Γ (.invoke e "as_ref" []) t ↔ ∃ u, Gives Γ e (.option u) ∧ t = .option (.ref u) := by
  constructor
  · intro h
    generalize he : Expr.invoke e "as_ref" [] = whole at h
    cases h with
    | asRef h =>
      obtain rfl : e = _ := by simpa [Expr.invoke] using he
      exact ⟨_, h, rfl⟩
    | _ => simp [Expr.invoke] at he
  · rintro ⟨u, h, rfl⟩
    exact .asRef h

theorem gives_asDeref : Gives Γ (.invoke e "as_deref" []) t ↔
    ∃ u v, Gives Γ e (.option u) ∧ u.Derefs v ∧ t = .option (.ref v) := by
  constructor
  · intro h
    generalize he : Expr.invoke e "as_deref" [] = whole at h
    cases h with
    | asDeref h hderef =>
      obtain rfl : e = _ := by simpa [Expr.invoke] using he
      exact ⟨_, _, h, hderef, rfl⟩
    | _ => simp [Expr.invoke] at he
  · rintro ⟨u, v, h, hderef, rfl⟩
    exact .asDeref h hderef

theorem gives_number {n : Nat} :
    Gives Γ (.number n) t ↔ n < 128 ∧ ∃ name ∈ TypeRef.integerNames, t = .named name [] := by
  constructor
  · intro h
    cases h with
    | number hn hname => exact ⟨hn, _, hname, rfl⟩
  · rintro ⟨hn, name, hname, rfl⟩
    exact .number hn hname

/-- Only references are turned into others. -/
theorem coerces_named {name : String} {ts : List ValueType} :
    s.Coerces (.named name ts) ↔ s = .named name ts := by
  refine ⟨fun h => ?_, fun h => h ▸ .same⟩
  cases h with
  | same => rfl

theorem coerces_ref : s.Coerces (.ref t) ↔ s = .ref t ∨ ∃ u, s = .ref u ∧ u.Derefs t := by
  constructor
  · intro h
    cases h with
    | same => exact .inl rfl
    | deref h => exact .inr ⟨_, rfl, h⟩
  · rintro (rfl | ⟨u, rfl, h⟩)
    · exact .same
    · exact .deref h

end Inversion

end Code

/-! ## Types on the wire -/

namespace TypeRef

mutual

/-- Whether a type is its own type on the wire: there is no reference and no slice in it. -/
def isSent : TypeRef → Bool
  | ⟨name, args, _, reference⟩ =>
    !reference && name != "[]" && name != "str" && areSent args

def areSent : List (TypeArg TypeRef) → Bool
  | [] => true
  | arg :: rest => argIsSent arg && areSent rest

def argIsSent : TypeArg TypeRef → Bool
  | .type _ ty => ty.isSent
  | .star => true

end

/-- Whether a value of the type on the wire can be borrowed as one of the type without its outer
reference. -/
def isLent (t : TypeRef) : Bool := if t.name = "str" then t.args.isEmpty else areSent t.args

/-- Values of the type can be passed: as they are sent, borrowed, or borrowed inside an `Option`. -/
inductive IsPassable (t : TypeRef) : Prop where
  | sent (h : t.isSent = true)
  | lent (hreference : t.reference = true) (h : t.isLent = true)
  | optional {inner : TypeRef} (hreference : t.reference = false)
    (hname : canonicalName t.name = "Option") (hargs : t.args = [.type .invariant inner])
    (hinner : inner.reference = true) (h : inner.isLent = true)

section Generic

variable (name : String) (ts : List TypeRef) (reference : Bool)

theorem areSent_map : areSent (ts.map (.type .invariant)) = ts.all isSent := by
  induction ts with
  | nil => rfl
  | cons t rest ih => simp [areSent, argIsSent, ih]

theorem isSent_generic : isSent { generic name ts with reference } =
    (!reference && name != "[]" && name != "str" && ts.all isSent) := by
  simp [generic, isSent, areSent_map]

theorem isLent_generic : isLent { generic name ts with reference } =
    if name = "str" then ts.isEmpty else ts.all isSent := by
  simp [generic, isLent, areSent_map]

theorem wire_generic : wire { generic name ts with reference } =
    if name = "[]" then generic "Vec" (ts.map wire)
    else if name = "str" then .named "String"
    else generic name (ts.map wire) := by
  simp [generic, wire, wireArgs_eq_map, wireArg, Function.comp_def, named]

theorem meaning_reference : meaning { generic name ts with reference } =
    if reference then .ref (.named (transparentName name) (ts.map meaning))
    else .named (transparentName name) (ts.map meaning) := by
  have h := meaning_generic name ts
  cases reference with
  | false => exact h
  | true => simpa [meaning, written, generic, ValueType.resolve] using h

end Generic

theorem transparentName_fixed : transparentName "Vec" = "Vec" ∧ transparentName "[]" = "[]" ∧
    transparentName "String" = "String" ∧ transparentName "str" = "str" := by
  decide

theorem reference_of_isSent {t : TypeRef} (h : t.isSent = true) : t.reference = false := by
  obtain ⟨name, args, nullable, reference⟩ := t
  cases reference with
  | true => simp [isSent] at h
  | false => rfl

/-- What a type means on the wire. -/
theorem meaning_wire_generic (name : String) (ts : List TypeRef) (reference : Bool) :
    (wire { generic name ts with reference }).meaning =
      if name = "[]" then .named "Vec" (ts.map fun t => t.wire.meaning)
      else if name = "str" then .named "String" []
      else .named (transparentName name) (ts.map fun t => t.wire.meaning) := by
  obtain ⟨hvec, _, hstring, _⟩ := transparentName_fixed
  have htext : TypeRef.meaning (.named "String") = .named "String" [] :=
    (meaning_generic "String" []).trans (by rw [hstring, List.map_nil])
  rw [wire_generic]
  split
  · simp [meaning_generic, hvec, Function.comp_def]
  · split
    · exact htext
    · simp [meaning_generic, Function.comp_def]

/-- A type means the same on the wire just if it is its own type there. -/
theorem meaning_wire_eq_iff {t : TypeRef} (h : t.Plain) :
    t.wire.meaning = t.meaning ↔ t.isSent = true := by
  obtain ⟨_, hslice, _, htext⟩ := transparentName_fixed
  induction h with
  | mk name ts reference _ ih =>
    rw [meaning_wire_generic, meaning_reference, isSent_generic]
    cases reference with
    | true =>
      simp only [if_true, Bool.not_true, Bool.false_and]
      split
      · simp
      · split <;> simp
    | false =>
      have hargs : (ts.map fun t => t.wire.meaning) = ts.map meaning ↔ ts.all isSent = true := by
        rw [List.map_inj_left, List.all_eq_true]
        exact forall₂_congr ih
      by_cases hname : name = "[]"
      · simp [hname, hslice]
      · by_cases hname' : name = "str"
        · simp [hname', htext]
        · simp [hname, hname', hargs]

theorem meaning_of_plain {t : TypeRef} (h : t.Plain) :
    t.meaning = if t.reference then .ref t.owned.meaning else t.owned.meaning := by
  obtain ⟨name, ts, reference, _⟩ := h
  have howned : owned { generic name ts with reference } = generic name ts := rfl
  rw [meaning_reference, howned, meaning_generic]

/-- What a type means on the wire and without its outer reference, and when values of the one can be
lent as values of the other. -/
inductive LentCase (t : TypeRef) : ValueType → ValueType → Prop where
  | text {ms : List ValueType} (hname : t.name = "str") (hlent : t.isLent = true ↔ ms = []) :
    LentCase t (.named "String" []) (.named "str" ms)
  | list {ws ms : List ValueType} (hname : t.name = "[]") (hlent : t.isLent = true ↔ ws = ms) :
    LentCase t (.named "Vec" ws) (.named "[]" ms)
  | other {name : String} {ws ms : List ValueType} (htext : t.name ≠ "str") (hlist : t.name ≠ "[]")
    (hlent : t.isLent = true ↔ ws = ms) : LentCase t (.named name ws) (.named name ms)

theorem lentCase {t : TypeRef} (h : t.Plain) : LentCase t t.wire.meaning t.owned.meaning := by
  obtain ⟨_, hslice, _, htext⟩ := transparentName_fixed
  obtain ⟨name, ts, reference, hts⟩ := h
  have howned : owned { generic name ts with reference } = generic name ts := rfl
  have hargs : ts.all isSent = true ↔ (ts.map fun t => t.wire.meaning) = ts.map meaning := by
    rw [List.map_inj_left, List.all_eq_true]
    exact forall₂_congr fun t ht => (meaning_wire_eq_iff (hts t ht)).symm
  rw [meaning_wire_generic, howned, meaning_generic]
  split
  · next hname =>
    subst hname
    rw [hslice]
    exact .list rfl (by rw [isLent_generic, if_neg (by decide), hargs])
  · next hlist =>
    split
    · next hname =>
      subst hname
      rw [htext]
      exact .text rfl (by simp [isLent_generic])
    · next htext => exact .other htext hlist (by rw [isLent_generic, if_neg htext, hargs])

namespace LentCase

variable {t : TypeRef} {w v : ValueType} (h : LentCase t w v)

include h

/-- Texts and lists are lent as slices. -/
theorem derefs_iff (hname : t.name = "str" ∨ t.name = "[]") :
    w.Derefs v ↔ t.isLent = true := by
  rw [ValueType.derefs_iff]
  cases h with
  | text _ hlent => simp [hlent]
  | list _ hlent => simp [hlent, eq_comm]
  | other htext hlist => exact absurd hname (by simp [htext, hlist])

/-- Anything else is lent as it is. -/
theorem eq_iff (hname : ¬ (t.name = "str" ∨ t.name = "[]")) : w = v ↔ t.isLent = true := by
  cases h with
  | text htext => exact absurd (.inl htext) hname
  | list hlist => exact absurd (.inr hlist) hname
  | other _ _ hlent => simp [hlent]

theorem lends_iff : w = v ∨ w.Derefs v ↔ t.isLent = true := by
  by_cases hname : t.name = "str" ∨ t.name = "[]"
  · rw [h.derefs_iff hname, or_iff_right]
    cases h with
    | text => simp
    | list => simp
    | other htext hlist => exact absurd hname (by simp [htext, hlist])
  · rw [h.eq_iff hname, or_iff_left]
    rw [ValueType.derefs_iff]
    cases h with
    | text htext => exact absurd (.inl htext) hname
    | list hlist => exact absurd (.inr hlist) hname
    | other =>
      simp only [ValueType.named.injEq]
      rintro (⟨⟨hstring, _⟩, htext, _⟩ | ⟨_, ⟨hvec, _⟩, hslice, _⟩)
      · exact absurd (hstring.symm.trans htext) (by decide)
      · exact absurd (hvec.symm.trans hslice) (by decide)

end LentCase

/-- The name of optional types is the path of one in the standard library. -/
theorem eq_of_alias? {name : String} {a : Alias} (h : alias? name = some a)
    (ha : a.canonical = "Option") : ∃ start ∈ ["", "::"], ∃ root ∈ ["std::", "core::", "alloc::"],
      name = start ++ root ++ "option::Option" := by
  have hlibrary {path : String} (h : Alias.ofLibrary? path = some a) : path = "option::Option" := by
    unfold Alias.ofLibrary? at h
    split at h
    · split at h
      · next hprimitive =>
        cases h
        change _ = "Option" at ha
        subst ha
        exact absurd hprimitive (by decide)
      · cases h
    · split at h
      · unfold Alias.ofForeign? at h
        split at h <;> cases h <;> exact absurd ha (by decide)
      · split at h <;> first | rfl | (cases h; exact absurd ha (by decide)) | cases h
  unfold alias? at h
  dsimp only at h
  split at h
  · next hmachine =>
    cases h
    unfold Alias.ofMachine? at hmachine
    split at hmachine <;> cases hmachine <;> exact absurd ha (by decide)
  · split at h
    · unfold Alias.ofBrowser? at h
      split at h <;> cases h <;> exact absurd ha (by decide)
    · obtain ⟨path, hpath, hof⟩ := Option.bind_eq_some_iff.mp h
      obtain rfl := hlibrary hof
      obtain ⟨root, hroot, hstrip⟩ := List.exists_of_findSome?_eq_some hpath
      have hname := Text.stripPrefix?_eq_some_iff.mp hstrip
      cases habsolute : Text.stripPrefix? "::" name with
      | none =>
        rw [habsolute, Option.getD_none] at hname
        exact ⟨"", by simp, root, hroot, by simpa using hname⟩
      | some rest =>
        rw [habsolute, Option.getD_some] at hname
        refine ⟨"::", by simp, root, hroot, ?_⟩
        rw [Text.stripPrefix?_eq_some_iff.mp habsolute, hname, String.append_assoc]

/-- A type whose common name is that of optional types has this simple name. -/
theorem lastSegment_of_canonicalName {name : String} (h : canonicalName name = "Option") :
    Text.lastSegment name = "Option" := by
  cases halias : alias? name with
  | none =>
    rw [canonicalName_eq_self halias] at h
    subst h
    decide
  | some a =>
    rw [canonicalName, halias, Option.elim_some] at h
    obtain ⟨start, hstart, root, hroot, rfl⟩ := eq_of_alias? halias h
    have hall : ∀ start ∈ ["", "::"], ∀ root ∈ ["std::", "core::", "alloc::"],
        Text.lastSegment (start ++ root ++ "option::Option") = "Option" := by
      decide
    exact hall start hstart root hroot

theorem transparentName_eq_option {name : String} :
    transparentName name = "Option" ↔ canonicalName name = "Option" := by
  by_cases hnominal : isNominal name = true
  · have hcanonical := canonicalName_mem_wrappedNames hnominal
    rw [transparentName, if_pos hnominal]
    refine iff_of_false ?_ ?_
    · rintro rfl
      exact absurd hnominal (by decide)
    · intro heq
      rw [heq] at hcanonical
      exact absurd hcanonical (by decide)
  · rw [transparentName_eq (by simpa using hnominal)]

end TypeRef

namespace Emission

open Code TypeRef

/-- A reference to a field fits just if the type can be lent. -/
theorem fits_borrow {t : TypeRef} (h : t.Plain) (x : String) :
    Fits [(x, t.wire.meaning)] (.borrow (.var x)) (.ref t.owned.meaning) ↔
      t.isLent = true ∧ t.wire.meaning.isValue = true := by
  simp only [Fits, gives_borrow, gives_var]
  constructor
  · rintro ⟨_, ⟨_, ⟨rfl, hvalue⟩, rfl⟩, hcoerces⟩
    rw [coerces_ref] at hcoerces
    refine ⟨(lentCase h).lends_iff.mp ?_, hvalue⟩
    rcases hcoerces with heq | ⟨u, heq, hderefs⟩
    · exact .inl (ValueType.ref.inj heq)
    · exact .inr (ValueType.ref.inj heq ▸ hderefs)
  · rintro ⟨hlent, hvalue⟩
    refine ⟨_, ⟨_, ⟨rfl, hvalue⟩, rfl⟩, coerces_ref.mpr ?_⟩
    rcases (lentCase h).lends_iff.mpr hlent with heq | hderefs
    · exact .inl (congrArg ValueType.ref heq)
    · exact .inr ⟨_, rfl, hderefs⟩

/-- What is borrowed of an optional field fits just if it is an `Option` of something that can be
lent. -/
theorem fits_optional {name x : String} {inner : TypeRef} {rest : List TypeRef}
    (hname : Text.lastSegment name = "Option") (hinner : inner.Plain)
    (hreference : inner.reference = true) :
    let t := generic name (inner :: rest)
    Fits [(x, t.wire.meaning)]
        (.invoke (.var x) (if Handler.isOptionalSlice t then "as_deref" else "as_ref") [])
        t.meaning ↔
      (canonicalName name = "Option" ∧ rest = [] ∧ inner.isLent = true) ∧
        t.wire.meaning.isValue = true := by
  intro t
  have hwire : t.wire.meaning = .named (transparentName name)
      ((inner :: rest).map fun t => t.wire.meaning) := by
    refine (meaning_wire_generic name (inner :: rest) false).trans ?_
    rw [if_neg, if_neg]
    · rintro rfl
      exact absurd hname (by decide)
    · rintro rfl
      exact absurd hname (by decide)
  have hmeaning : inner.meaning = .ref inner.owned.meaning := by
    rw [meaning_of_plain hinner, if_pos hreference]
  have hslice : Handler.isOptionalSlice t = true ↔ inner.name = "str" ∨ inner.name = "[]" := by
    simp [t, Handler.isOptionalSlice, generic, firstArg?, TypeArg.ty?]
  have hcase := lentCase hinner
  -- the field is an option just if it is one of a single type
  have hoption (u : ValueType) : .option u = t.wire.meaning ↔
      canonicalName name = "Option" ∧ rest = [] ∧ u = inner.wire.meaning := by
    rw [hwire, ← transparentName_eq_option, ValueType.option, ValueType.named.injEq, List.map_cons,
      List.cons.injEq, @eq_comm _ [], List.map_eq_nil_iff, @eq_comm _ "Option",
      @and_comm (u = inner.wire.meaning)]
  have htarget {s : ValueType} (hcanonical : canonicalName name = "Option") (hrest : rest = []) :
      (ValueType.option (.ref s)).Coerces t.meaning ↔ s = inner.owned.meaning := by
    rw [meaning_generic, hrest, transparentName_eq_option.mpr hcanonical, List.map_cons, hmeaning,
      coerces_named, ValueType.option]
    simp
  split
  · next hopt =>
    rw [← hcase.derefs_iff (hslice.mp hopt)]
    simp only [Fits, gives_asDeref, gives_var, hoption]
    constructor
    · rintro ⟨_, ⟨u, v, ⟨⟨hcanonical, hrest, rfl⟩, hvalue⟩, hderefs, rfl⟩, hcoerces⟩
      exact ⟨⟨hcanonical, hrest, (htarget hcanonical hrest).mp hcoerces ▸ hderefs⟩, hvalue⟩
    · rintro ⟨⟨hcanonical, hrest, hderefs⟩, hvalue⟩
      exact ⟨_, ⟨_, _, ⟨⟨hcanonical, hrest, rfl⟩, hvalue⟩, hderefs, rfl⟩,
        (htarget hcanonical hrest).mpr rfl⟩
  · next hopt =>
    rw [← hcase.eq_iff (mt hslice.mpr hopt)]
    simp only [Fits, gives_asRef, gives_var, hoption]
    constructor
    · rintro ⟨_, ⟨u, ⟨⟨hcanonical, hrest, rfl⟩, hvalue⟩, rfl⟩, hcoerces⟩
      exact ⟨⟨hcanonical, hrest, (htarget hcanonical hrest).mp hcoerces⟩, hvalue⟩
    · rintro ⟨⟨hcanonical, hrest, heq⟩, hvalue⟩
      exact ⟨_, ⟨_, ⟨⟨hcanonical, hrest, rfl⟩, hvalue⟩, rfl⟩, (htarget hcanonical hrest).mpr heq⟩

theorem isOptionalReference_generic (name : String) (ts : List TypeRef) :
    Handler.isOptionalReference (generic name ts) = true ↔
      Text.lastSegment name = "Option" ∧ ∃ inner rest, ts = inner :: rest ∧
        inner.reference = true := by
  cases ts <;> simp [Handler.isOptionalReference, simpleName, firstArg?, generic, TypeArg.ty?]

theorem isPassable_of_reference {t : TypeRef} (hreference : t.reference = true) :
    t.IsPassable ↔ t.isLent = true := by
  refine ⟨fun h => ?_, .lent hreference⟩
  cases h with
  | sent hsent =>
    rw [reference_of_isSent hsent] at hreference
    cases hreference
  | lent _ hlent => exact hlent
  | optional howned => simp [hreference] at howned

theorem isPassable_optional {name : String} {inner : TypeRef} {rest : List TypeRef}
    (hreference : inner.reference = true) : (generic name (inner :: rest)).IsPassable ↔
      canonicalName name = "Option" ∧ rest = [] ∧ inner.isLent = true := by
  constructor
  · intro h
    cases h with
    | sent hsent =>
      have hinner : inner.isSent = true := by
        have hall := (isSent_generic name (inner :: rest) false).symm.trans hsent
        simp only [Bool.and_eq_true, List.all_cons] at hall
        exact hall.2.1
      rw [reference_of_isSent hinner] at hreference
      cases hreference
    | lent howned => cases howned
    | optional _ hname hargs _ hlent =>
      obtain ⟨rfl, rfl⟩ : inner = _ ∧ rest = [] := by simpa [generic] using hargs
      exact ⟨hname, rfl, hlent⟩
  · rintro ⟨hname, rfl, hlent⟩
    exact .optional rfl hname rfl hreference hlent

theorem isPassable_other {name : String} {ts : List TypeRef}
    (h : ¬ Handler.isOptionalReference (generic name ts) = true) :
    (generic name ts).IsPassable ↔ (generic name ts).isSent = true := by
  refine ⟨fun hpassable => ?_, .sent⟩
  cases hpassable with
  | sent hsent => exact hsent
  | lent howned => cases howned
  | @optional inner _ hname hargs hinner =>
    obtain ⟨rfl⟩ : ts = [inner] := by
      cases ts with
      | nil => cases hargs
      | cons t rest => simpa [generic] using hargs
    exact absurd ((isOptionalReference_generic name [inner]).mpr
      ⟨lastSegment_of_canonicalName hname, inner, [], rfl, hinner⟩) h

/-- An argument of the declared type can be made of a field of the request just if values of the
type can be passed. -/
theorem fits_passed {t : TypeRef} (h : t.Plain) (x : String) :
    Fits [(x, t.wire.meaning)] (Handler.passed t x) t.meaning ↔
      t.IsPassable ∧ t.wire.meaning.isValue = true := by
  cases hreference : t.reference with
  | true =>
    rw [Handler.passed, if_pos hreference, meaning_of_plain h, if_pos hreference, fits_borrow h,
      isPassable_of_reference hreference]
  | false =>
    obtain ⟨name, ts, reference, hts⟩ := h
    obtain rfl : reference = false := hreference
    change Fits [(x, (generic name ts).wire.meaning)] (Handler.passed (generic name ts) x)
      (generic name ts).meaning ↔
        (generic name ts).IsPassable ∧ (generic name ts).wire.meaning.isValue = true
    by_cases hoptional : Handler.isOptionalReference (generic name ts) = true
    · obtain ⟨hname, inner, rest, rfl, hinner⟩ := (isOptionalReference_generic name ts).mp hoptional
      rw [Handler.passed, if_neg (by simp [generic]), if_pos hoptional,
        isPassable_optional hinner]
      exact fits_optional hname (hts inner List.mem_cons_self) hinner
    · rw [Handler.passed, if_neg (by simp [generic]), if_neg hoptional,
        isPassable_other hoptional]
      have hsent : (generic name ts).wire.meaning = (generic name ts).meaning ↔
          (generic name ts).isSent = true := meaning_wire_eq_iff (.mk name ts false hts)
      rw [← hsent, meaning_generic]
      simp only [Fits, gives_var]
      constructor
      · rintro ⟨_, ⟨rfl, hvalue⟩, hcoerces⟩
        exact ⟨coerces_named.mp hcoerces, hvalue⟩
      · rintro ⟨heq, hvalue⟩
        exact ⟨_, ⟨rfl, hvalue⟩, coerces_named.mpr heq⟩

/-! ## Numbers of dialects -/

theorem reference_normalize {t : TypeRef} (h : t.reference = true) :
    t.normalize.reference = true := by
  obtain ⟨name, args, nullable, reference⟩ := t
  obtain rfl : reference = true := h
  rw [TypeRef.normalize]
  unfold rebuild
  split
  · split
    · simp
    · split <;> simp
  · rfl

/-- A number fits a type whose normal form is an integer just if the type is that integer, perhaps
by a transparent alias. -/
theorem fits_number {t : TypeRef} (h : t.Plain) (hinteger : t.normalize.isInteger = true) {n : Nat}
    (hn : n < 128) : Fits [] (.number n) t.meaning ↔ t.args = [] ∧ isNominal t.name = false := by
  have howned : t.reference = false := by
    rw [Bool.eq_false_iff]
    intro hreference
    simp [isInteger, reference_normalize hreference] at hinteger
  obtain ⟨name, ts, reference, hts⟩ := h
  obtain rfl : reference = false := howned
  change Fits [] (.number n) (generic name ts).meaning ↔
    (generic name ts).args = [] ∧ isNominal name = false
  have hfits : Fits [] (.number n) (generic name ts).meaning ↔
      transparentName name ∈ integerNames ∧ ts = [] := by
    simp only [Fits, gives_number, meaning_generic, coerces_named]
    constructor
    · rintro ⟨_, ⟨_, i, hi, rfl⟩, heq⟩
      obtain ⟨rfl, hargs⟩ := ValueType.named.inj heq
      exact ⟨hi, List.map_eq_nil_iff.mp hargs.symm⟩
    · rintro ⟨hname, rfl⟩
      exact ⟨_, ⟨hn, _, hname, rfl⟩, rfl⟩
  have hargs : (generic name ts).args = [] ↔ ts = [] := List.map_eq_nil_iff
  rw [hfits, hargs, and_comm]
  refine and_congr_right ?_
  rintro rfl
  have hcanonical : canonicalName name ∈ integerNames := by
    change isInteger (normalize (generic name [])) = true at hinteger
    simpa [normalize_generic, rebuild, isInteger] using hinteger
  cases hnominal : isNominal name with
  | true =>
    have hall : ∀ i ∈ integerNames, isNominal i = false := by decide
    refine iff_of_false (fun hname => ?_) (by simp)
    rw [transparentName, if_pos hnominal] at hname
    rw [hall name hname] at hnominal
    cases hnominal
  | false => simpa [transparentName_eq hnominal] using hcanonical

end Emission

/-! ## Parameters of operations -/

open Code

theorem TypeRef.plain_of_signatureOf {m : MethodSyntax} {signature : Signature}
    (h : Collected.signatureOf m = .ok signature) {param : Param}
    (hparam : param ∈ signature.params) : param.ty.Plain := by
  obtain ⟨params, hparams, h⟩ := Except.bind_eq_ok.mp h
  obtain ⟨returns, _, h⟩ := Except.bind_eq_ok.mp h
  cases Except.pure_eq_ok.mp h
  obtain ⟨p, _, hp⟩ := (Except.forall₂_of_mapM hparams).exists_left hparam
  obtain ⟨ty, hty, hp⟩ := Except.bind_eq_ok.mp hp
  cases Except.pure_eq_ok.mp hp
  exact plain_of_ofSyntax p.type hty

/-- The methods of a collection have the signatures that are read off their syntax. -/
theorem Collection.exists_signatureOf {c : Collection} {d : Declaration} {members : List Member}
    (h : c.members d = .ok members) {member : Member} (hmember : member ∈ members)
    {signature : Signature} (hkind : member.kind = .method signature) :
    ∃ m, Collected.signatureOf m = .ok signature := by
  unfold Collection.members at h
  split at h
  · cases h
    cases hmember
  · next item _ =>
    split at h
    · cases h
    · next named hnamed =>
      cases h
      obtain ⟨⟨⟨name, kind⟩, index⟩, hentry, rfl⟩ := List.mem_map.mp hmember
      obtain rfl : kind = .method signature := hkind
      have hmem : (name, .method signature) ∈ named :=
        (List.mem_zipIdx' hentry).2 ▸ List.getElem_mem _
      unfold Collected.membersOf at hnamed
      split at hnamed
      · obtain ⟨f, _, hf⟩ := (Except.forall₂_of_mapM hnamed).exists_left hmem
        obtain ⟨_, _, hf⟩ := Except.bind_eq_ok.mp hf
        cases Except.pure_eq_ok.mp hf
      · cases hnamed
        cases hmem
      · obtain ⟨m, _, hm⟩ := (Except.forall₂_of_mapM hnamed).exists_left hmem
        obtain ⟨_, hsignature, hm⟩ := Except.bind_eq_ok.mp hm
        cases Except.pure_eq_ok.mp hm
        exact ⟨m, hsignature⟩

/-- What is known of the parameters of the operations of a collection: their types are plain, and
those that receive the number of the dialect have an integer as their normal form. -/
theorem Dao.params_ofDeclaration {c : Collection} {scope : Scope} {d : Declaration} {dao : Dao}
    (h : Dao.ofDeclaration c.source scope d = .ok dao) {op : Operation}
    (hop : op ∈ dao.operations) {param : LogicalParam} (hparam : param ∈ op.params) :
    param.ty.Plain ∧ (param.dbType = true → param.ty.normalize.isInteger = true) := by
  obtain ⟨_, members, hmembers, hall⟩ := Dao.ofDeclaration_ok h
  obtain ⟨member, hmember, haccepted⟩ := hall.exists_left hop
  obtain ⟨signature, hkind, hmethod⟩ := Operation.ofMember_ok haccepted
  obtain ⟨m, hsignature⟩ := Collection.exists_signatureOf hmembers hmember hkind
  have hdeclared := Operation.ofMethod_iff.mp hmethod
  refine ⟨?_, hdeclared.dbTypes param hparam⟩
  obtain ⟨_, hparams, _⟩ := Operation.ofMethod_declared hmethod
  rw [hparams] at hparam
  obtain ⟨written, hwritten, rfl⟩ := List.mem_map.mp hparam
  refine TypeRef.plain_of_signatureOf hsignature ?_
  unfold Signature.logicalParams at hwritten
  split at hwritten
  · exact List.dropLast_subset _ hwritten
  · exact hwritten

/-! ## Handlers -/

namespace Emission

open TypeRef

/-- An argument for a parameter, given the fields of the request: a number for a parameter that
receives the number of the dialect, and otherwise something made of the field for the parameter,
whose type is the one on the wire. -/
inductive ArgumentFits (fields : List Binding) (param : LogicalParam) (arg : Expr) : Prop where
  | number (hdbType : param.dbType = true)
    (hfits : Fits [] arg param.ty.meaning ↔ param.ty.args = [] ∧ isNominal param.ty.name = false)
  | field {field : Binding} (hdbType : param.dbType = false) (hfield : field ∈ fields)
    (hname : parseName param.name = some field.name)
    (hty : parseType param.ty.wire.render = some field.ty)
    (hfits : Fits [(field.name, param.ty.wire.meaning)] arg param.ty.meaning ↔
      param.ty.IsPassable ∧ param.ty.wire.meaning.isValue = true)

theorem discriminator_lt (dialect : Dialect) : dialect.discriminator < 128 := by
  cases dialect <;> decide

/-- The handler of an accepted operation takes apart the fields of its request and passes an
argument for each parameter. This has the declared type of the parameter just if values of that can
be sent as they are, borrowed, or borrowed inside an option; a number just if the type is an
integer, perhaps by a transparent alias. -/
theorem Endpoint.arguments_fit {c : Collection} {scope : Scope} {d : Declaration} {dao : Dao}
    (hdao : Dao.ofDeclaration c.source scope d = .ok dao) {op : Operation}
    (hop : op ∈ dao.operations) {ctx : Context} {interface : List Token} {endpoint : Endpoint}
    (h : Endpoint.ofOperation ctx interface dao.name op = .ok endpoint) :
    ∃ method args value,
      endpoint.handler.body = Handler.bodyOf ctx endpoint.request.name
        (endpoint.request.fields.map (·.name)) (Handler.callOf ctx op method args) value ∧
      List.Forall₂ (ArgumentFits endpoint.request.fields) op.params args := by
  obtain ⟨name, hrequest, hhandler⟩ := ofOperation_ok h
  have hfields := RequestStruct.fields_ofOperation hrequest
  obtain ⟨method, names, args, conversion, _, hnames, hargs, _, _, hbody⟩ :=
    Handler.ofOperation_ok hhandler
  have hsame : names = endpoint.request.fields.map (·.name) := by
    refine List.right_unique_forall₂' (fun _ _ _ h h' => Option.some.inj (h.symm.trans h'))
      hnames ?_
    rw [List.forall₂_map_right_iff]
    exact hfields.imp fun _ _ hfield => hfield.1
  refine ⟨method, args, _, hsame ▸ hbody, ?_⟩
  have hlisted := (List.forall₂_and_left _ _).mpr ⟨fun _ h => h, hargs⟩
  refine hlisted.imp ?_
  rintro param arg ⟨hparam, harg⟩
  obtain ⟨hplain, hinteger⟩ := Dao.params_ofDeclaration hdao hop hparam
  unfold Handler.argumentOf at harg
  split at harg
  · next hdbType =>
    cases harg
    exact .number hdbType (fits_number hplain (hinteger hdbType) (discriminator_lt _))
  · next hdbType =>
    obtain ⟨x, hx, harg⟩ := Except.bind_eq_ok.mp harg
    cases Except.pure_eq_ok.mp harg
    have hsent : param ∈ RequestStruct.sentParams op := by
      simpa [RequestStruct.sentParams, hparam] using hdbType
    obtain ⟨field, hmem, hname, hty⟩ := hfields.exists_right hsent
    cases (identifier_eq_ok.mp hx).symm.trans hname
    exact .field (by simpa using hdbType) hmem hname hty (fits_passed hplain _)

/-- The code of a query with the given parameters. -/
def countCode (written : String) : String :=
  "#[dao] pub trait TagDao \x7b #[query(\"SELECT 1\")] async fn count(&self, " ++ written ++
    ") -> i64; \x7d"

/-- The query with the given parameters is accepted, and an endpoint is generated for it. -/
def Serves (written : String) (op : Operation) (endpoint : Endpoint) : Prop :=
  ∃ c dao, Declares (countCode written) c dao op ∧
    Endpoint.ofOperation .empty [] dao.name op = .ok endpoint

/-- Whether the query with the given parameters has an endpoint and these are the parameters. -/
def isServed (written : String) (params : List LogicalParam) : Bool :=
  declaresAny (countCode written) fun dao op =>
    op.params == params && (Endpoint.ofOperation .empty [] dao.name op).toOption.isSome

theorem exists_of_isServed {written : String} {params : List LogicalParam}
    (h : isServed written params = true) :
    ∃ op endpoint, Serves written op endpoint ∧ op.params = params := by
  obtain ⟨c, dao, op, hdeclares, hboth⟩ := exists_of_declaresAny h
  obtain ⟨hparams, hendpoint⟩ := Bool.and_eq_true_iff.mp hboth
  obtain ⟨endpoint, hendpoint⟩ := Option.isSome_iff_exists.mp hendpoint
  rw [Except.toOption_eq_some] at hendpoint
  exact ⟨op, endpoint, ⟨c, dao, hdeclares, hendpoint⟩, beq_iff_eq.mp hparams⟩

/-- A borrowed text, an optional one and a number are passed with the types that are declared. -/
theorem Endpoint.arguments_fit_borrowed :
    let text : TypeRef := .byRef (.named "str")
    let params : List LogicalParam := [⟨"name", text, false⟩,
      ⟨"kind", .generic "Option" [text], false⟩, ⟨"db", .named "i32", true⟩]
    ∃ op endpoint, Serves "name: &str, kind: Option<&str>, #[db_type] db: i32" op endpoint ∧
      op.params = params ∧ ∃ method args value,
        endpoint.handler.body = Handler.bodyOf .empty endpoint.request.name
          (endpoint.request.fields.map (·.name)) (Handler.callOf .empty op method args)
          value ∧
        List.Forall₂ (fun (param : LogicalParam) arg => ∃ Γ, Fits Γ arg param.ty.meaning) params
          args := by
  intro text params
  have hserved :
      isServed "name: &str, kind: Option<&str>, #[db_type] db: i32" params = true := by
    decide +kernel
  obtain ⟨op, endpoint, hserves, hparams⟩ := exists_of_isServed hserved
  obtain ⟨c, dao, ⟨_, ⟨d, _, hdao⟩, hop⟩, hendpoint⟩ := id hserves
  obtain ⟨method, args, value, hbody, hargs⟩ := Endpoint.arguments_fit hdao hop hendpoint
  refine ⟨op, endpoint, hserves, hparams, method, args, value, hbody, ?_⟩
  have hnumber : ∀ param ∈ params, param.dbType = true →
      param.ty.args = [] ∧ isNominal param.ty.name = false := by
    decide
  have hpassable : ∀ param ∈ params, param.dbType = false →
      param.ty.IsPassable ∧ param.ty.wire.meaning.isValue = true := by
    have hname : text.IsPassable := .lent rfl (by decide)
    have hkind : (TypeRef.generic "Option" [text]).IsPassable :=
      .optional rfl (by decide) rfl rfl (by decide)
    simp only [params, List.forall_mem_cons]
    exact ⟨fun _ => ⟨hname, by decide⟩, fun _ => ⟨hkind, by decide⟩, nofun, nofun⟩
  rw [hparams] at hargs
  refine ((List.forall₂_and_left _ _).mpr ⟨fun _ h => h, hargs⟩).imp ?_
  rintro param arg ⟨hparam, hfits⟩
  cases hfits with
  | number hdbType hfits => exact ⟨_, hfits.mpr (hnumber param hparam hdbType)⟩
  | field hdbType _ _ _ hfits => exact ⟨_, hfits.mpr (hpassable param hparam hdbType)⟩

/-- A list of borrowed texts is sent as a list of texts and passed as it is, which is not of the
declared type. -/
theorem Endpoint.exists_not_fits :
    let texts : TypeRef := .generic "Vec" [.byRef (.named "str")]
    ∃ op endpoint, Serves "names: Vec<&str>" op endpoint ∧ op.params = [⟨"names", texts, false⟩] ∧
      (∃ method value, endpoint.handler.body = Handler.bodyOf .empty endpoint.request.name
        ["names"] (Handler.callOf .empty op method [.var "names"]) value) ∧
      ¬ Fits [("names", texts.wire.meaning)] (.var "names") texts.meaning := by
  intro texts
  have hserved : isServed "names: Vec<&str>" [⟨"names", texts, false⟩] = true := by
    decide +kernel
  obtain ⟨op, endpoint, hserves, hparams⟩ := exists_of_isServed hserved
  obtain ⟨_, dao, _, hendpoint⟩ := id hserves
  have hpassed : Handler.passed texts "names" = .var "names" := by
    rw [Handler.passed, if_neg (by decide), if_neg (by decide)]
  refine ⟨op, endpoint, hserves, hparams, ?_, ?_⟩
  · obtain ⟨_, _, hhandler⟩ := Endpoint.ofOperation_ok hendpoint
    obtain ⟨method, fields, args, conversion, _, hfields, hargs, _, _, hbody⟩ :=
      Handler.ofOperation_ok hhandler
    have hname : parseName "names" = some "names" := by decide +kernel
    have hsent : RequestStruct.sentParams op = [⟨"names", texts, false⟩] := by
      rw [RequestStruct.sentParams, hparams]
      rfl
    have harg : Handler.argumentOf .empty ⟨"names", texts, false⟩ = .ok (.var "names") := by
      rw [Handler.argumentOf, if_neg (by decide), identifier_eq_ok.mpr hname, ← hpassed]
      rfl
    obtain rfl : fields = ["names"] :=
      List.right_unique_forall₂' (fun _ _ _ h h' => Option.some.inj (h.symm.trans h'))
        (hsent ▸ hfields) (.cons hname .nil)
    obtain rfl : args = [.var "names"] :=
      List.right_unique_forall₂' (fun _ _ _ h h' => Except.ok.inj (h.symm.trans h'))
        (hparams ▸ hargs) (.cons harg .nil)
    exact ⟨method, _, hbody⟩
  · have hplain : texts.Plain :=
      .mk "Vec" [.byRef (.named "str")] false (by simpa using Plain.byRef (.named "str"))
    have hnot : ¬ texts.IsPassable := by
      intro h
      cases h with
      | sent h => exact absurd h (by decide)
      | lent h => exact absurd h (by decide)
      | optional _ h => exact absurd h (by decide)
    rw [← hpassed, fits_passed hplain]
    exact fun h => hnot h.1

end Emission

end DaoGen
