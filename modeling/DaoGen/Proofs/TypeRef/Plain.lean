import DaoGen.Declaration.WrittenType
import DaoGen.Proofs.Failure
import DaoGen.TypeRef.Normal

/-!
# Plain types

A type that was written down has plain arguments and no mark for absent values; only normal forms
have one.
-/
namespace DaoGen.TypeRef

open Code

/-- A type as it is written: an optional value has the type that says so. -/
inductive Plain : TypeRef → Prop where
  | mk (name : String) (ts : List TypeRef) (reference : Bool) (h : ∀ t ∈ ts, Plain t) :
    Plain { generic name ts with reference }

theorem Plain.named (name : String) : Plain (.named name) := .mk name [] false nofun

theorem Plain.slice {element : TypeRef} (h : Plain element) : Plain element.slice :=
  .mk "[]" [element] false fun _ ht => List.mem_singleton.mp ht ▸ h

theorem Plain.byRef {t : TypeRef} (h : Plain t) : Plain t.byRef := by
  obtain ⟨name, ts, _, hts⟩ := h
  exact .mk name ts true hts

mutual

/-- A written type is plain. -/
theorem plain_of_ofSyntax :
    (syn : TypeSyntax) → ∀ {t : TypeRef}, ofSyntax syn = .ok t → Plain t
  | .named absolute names args, t, h => by
    rw [ofSyntax] at h
    obtain ⟨as, has, h⟩ := Except.bind_eq_ok.mp h
    cases Except.pure_eq_ok.mp h
    obtain ⟨ts, rfl, hts⟩ := plain_of_ofArguments args has
    exact .mk _ ts false hts
  | .shared target, t, h => by
    rw [ofSyntax] at h
    obtain ⟨inner, hinner, h⟩ := Except.bind_eq_ok.mp h
    cases Except.pure_eq_ok.mp h
    exact (plain_of_ofSyntax target hinner).byRef
  | .borrowed tokens target, t, h => by
    rw [ofSyntax] at h
    obtain ⟨_, _, h⟩ := Except.bind_eq_ok.mp h
    cases Except.pure_eq_ok.mp h
    exact .named _
  | .slice element, t, h => by
    rw [ofSyntax] at h
    obtain ⟨inner, hinner, h⟩ := Except.bind_eq_ok.mp h
    cases Except.pure_eq_ok.mp h
    exact (plain_of_ofSyntax element hinner).slice
  | .unit, t, h => by
    rw [ofSyntax, Except.pure_eq_ok] at h
    exact h ▸ .named _
  | .paren inner, t, h => by
    rw [ofSyntax] at h
    exact plain_of_ofSyntax inner h
  | .infer, t, h => by cases h
  | .macroCall tokens, t, h => by cases h
  | .verbatim tokens, t, h => by
    rw [ofSyntax] at h
    obtain ⟨_, _, h⟩ := Except.bind_eq_ok.mp h
    cases Except.pure_eq_ok.mp h
    exact .named _

theorem plain_of_ofArguments :
    (syns : List ArgumentSyntax) → ∀ {as : List (TypeArg TypeRef)}, ofArguments syns = .ok as →
      ∃ ts : List TypeRef, as = ts.map (.type .invariant) ∧ ∀ t ∈ ts, Plain t
  | [], as, h => by
    rw [ofArguments, Except.pure_eq_ok] at h
    exact ⟨[], h.symm, nofun⟩
  | syn :: rest, as, h => by
    rw [ofArguments] at h
    obtain ⟨t, ht, h⟩ := Except.bind_eq_ok.mp h
    obtain ⟨as', has, h⟩ := Except.bind_eq_ok.mp h
    cases Except.pure_eq_ok.mp h
    obtain ⟨ts, rfl, hts⟩ := plain_of_ofArguments rest has
    refine ⟨t :: ts, rfl, fun u hu => ?_⟩
    rcases List.mem_cons.mp hu with rfl | hu
    · exact plain_of_ofArgument syn ht
    · exact hts u hu

theorem plain_of_ofArgument :
    (syn : ArgumentSyntax) → ∀ {t : TypeRef}, ofArgument syn = .ok t → Plain t
  | .type syn, t, h => by
    rw [ofArgument] at h
    exact plain_of_ofSyntax syn h
  | .other tokens, t, h => by
    rw [ofArgument, Except.pure_eq_ok] at h
    exact h ▸ .named _

end

/-! ## Normal forms -/

theorem normalize_generic (name : String) (ts : List TypeRef) :
    normalize (generic name ts) =
      rebuild (canonicalName name) ((ts.map normalize).map (.type .invariant)) false false := by
  simp [generic, normalize, normalizeArgs_eq_map, normalizeArg, Function.comp_def]

/-- The normal form of a box is that of its content. -/
theorem normalize_box {name : String} (h : isBox (canonicalName name) = true) (t : TypeRef) :
    normalize (generic name [t]) = normalize t := by
  simp only [normalize_generic, rebuild, List.map_cons, List.map_nil, h, if_true, Bool.or_false]
  cases normalize t
  rfl

/-- The normal form of an optional type is marked. -/
theorem normalize_option {name : String} (h : canonicalName name = "Option") (t : TypeRef) :
    normalize (generic name [t]) = { normalize t with nullable := true } := by
  have hbox : isBox "Option" = false := by decide
  simp [normalize_generic, rebuild, h, hbox]

/-- The normal form of any other type has the arguments in normal form. -/
theorem normalize_other {name : String} {ts : List TypeRef}
    (h : ts.length = 1 → isBox (canonicalName name) = false ∧ canonicalName name ≠ "Option") :
    normalize (generic name ts) = generic (canonicalName name) (ts.map normalize) := by
  rw [normalize_generic]
  match ts with
  | [] => rfl
  | [t] =>
    obtain ⟨hbox, hoption⟩ := h rfl
    simp [rebuild, hbox, hoption, generic]
  | _ :: _ :: _ => rfl

end DaoGen.TypeRef
