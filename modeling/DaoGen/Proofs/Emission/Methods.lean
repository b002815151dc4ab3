import DaoGen.Emission.Implementation
import DaoGen.Emission.Replication
import DaoGen.Proofs.Failure

/-!
# Methods of emitters

An emitter makes a method for each generated operation, in order, with the header that all
emitters share. `forall₂_generated` is the one induction over the operations of a DAO.
-/
namespace DaoGen.Emission

open Code

/-! ## Names and types -/

theorem identifier_eq_ok {text name : String} :
    identifier text = .ok name ↔ parseName text = some name := by
  unfold identifier
  cases parseName text <;> simp

theorem typeTokens_eq_ok {ty : TypeRef} {tokens : List Token} :
    typeTokens ty = .ok tokens ↔ parseType ty.render = some tokens := by
  unfold typeTokens
  cases parseType ty.render <;> simp

theorem cratePath_eq_ok {name : QualifiedName} {tokens : List Token} :
    cratePath name = .ok tokens ↔ parsePath ("crate::" ++ name.path) = some tokens := by
  unfold cratePath
  cases parsePath ("crate::" ++ name.path) <;> simp

theorem attributeTokens_eq_ok {text : String} {tokens : List Token} :
    attributeTokens text = .ok tokens ↔ lex text = some tokens := by
  unfold attributeTokens
  cases lex text <;> simp

/-! ## Headers -/

namespace MethodHeader

/-- The parts of a header are those of its operation. -/
theorem ofOperation_ok {ctx : Context} {op : Operation} {header : MethodHeader}
    (h : ofOperation ctx op = .ok header) :
    identifier op.name = .ok header.name ∧
      (op.annotations |> Annotation.passthroughs |>.mapM attributeTokens) =
        .ok header.attributes ∧
      header.isAsync = (op.suspension == .async) ∧ paramsOf op.params = .ok header.params ∧
      continuationOf ctx op.suspension = .ok header.continuation ∧
      resultOf op.declaredReturn = .ok header.result := by
  obtain ⟨name, hname, h⟩ := Except.bind_eq_ok.mp h
  obtain ⟨attributes, hattributes, h⟩ := Except.bind_eq_ok.mp h
  obtain ⟨params, hparams, h⟩ := Except.bind_eq_ok.mp h
  obtain ⟨continuation, hcontinuation, h⟩ := Except.bind_eq_ok.mp h
  obtain ⟨result, hresult, h⟩ := Except.bind_eq_ok.mp h
  cases Except.pure_eq_ok.mp h
  exact ⟨hname, hattributes, rfl, hparams, hcontinuation, hresult⟩

/-- Parameters are repeated in order, each with its type. -/
theorem paramsOf_ok {params : List LogicalParam} {bindings : List Binding}
    (hok : paramsOf params = .ok bindings) :
    List.Forall₂ (fun param b => parseName param.name = some b.name ∧
      parseType param.ty.render = some b.ty) params bindings := by
  obtain ⟨names, hnames, hbindings⟩ := Except.bind_eq_ok.mp hok
  have hnamed := Except.forall₂_of_mapM hnames
  have hbound := Except.forall₂_of_mapM hbindings
  clear hok hnames hbindings
  induction hnamed generalizing bindings with
  | nil =>
    cases hbound
    exact .nil
  | cons hname _ ih =>
    cases hbound with
    | cons hbinding hrest =>
      obtain ⟨ty, hty, hbinding⟩ := Except.bind_eq_ok.mp hbinding
      cases Except.pure_eq_ok.mp hbinding
      exact .cons ⟨identifier_eq_ok.mp hname, typeTokens_eq_ok.mp hty⟩ (ih hrest)

/-- The receiver of the result is of the type of the runtime crate. -/
theorem continuationOf_ok {ctx : Context} {param : String} {ty : TypeRef}
    {binding? : Option Binding} (h : continuationOf ctx (.continuation param ty) = .ok binding?) :
    ∃ name carried tokens, binding? =
        some ⟨name, absolutePath [ctx.runtime, "Continuation"] ++ angled tokens⟩ ∧
      parseName param = some name ∧ ty.firstArg? = some carried ∧
      parseType carried.render = some tokens := by
  obtain ⟨name, hname, h⟩ := Except.bind_eq_ok.mp h
  split at h
  · cases h
  · next carried hcarried =>
    obtain ⟨tokens, htokens, h⟩ := Except.bind_eq_ok.mp h
    cases Except.pure_eq_ok.mp h
    exact ⟨name, carried, tokens, rfl, identifier_eq_ok.mp hname, hcarried,
      typeTokens_eq_ok.mp htokens⟩

theorem resultOf_ok {declared : Option TypeRef} {result : Option (List Token)}
    (h : resultOf declared = .ok result) :
    Option.Rel (fun ty tokens => parseType ty.render = some tokens) declared result := by
  cases declared with
  | none =>
    cases h
    exact .none
  | some ty =>
    obtain ⟨tokens, htokens, h⟩ := Except.bind_eq_ok.mp h
    cases Except.pure_eq_ok.mp h
    exact .some (typeTokens_eq_ok.mp htokens)

end MethodHeader

/-! ## Methods -/

/-- An emitter that makes a method for each generated operation makes them in order. -/
theorem forall₂_generated {method? : Operation → Except EmitCause (Option Method)}
    (hrule : ∀ op m?, method? op = .ok m? → m?.isSome = op.isGenerated)
    {operations : List Operation} {found : List (Option Method)}
    (h : operations.mapM method? = .ok found) :
    List.Forall₂ (fun op m => method? op = .ok (some m)) (operations.filter (·.isGenerated))
      (found.filterMap id) := by
  have hall := Except.forall₂_of_mapM h
  clear h
  induction hall with
  | nil => exact .nil
  | @cons op m? _ _ hop _ ih =>
    have hsome := hrule op m? hop
    cases m? with
    | none => rwa [List.filter_cons_of_neg (by simp [← hsome]), List.filterMap_cons_none rfl]
    | some m =>
      rw [List.filter_cons_of_pos (by simp [← hsome]), List.filterMap_cons_some (id_eq (some m))]
      exact .cons hop ih

/-- The method of an implementation has the header of its operation. -/
theorem methodWith_ok {ctx : Context} {op : Operation} {compute : Body} {m : Method}
    (h : methodWith ctx op compute = .ok m) : MethodHeader.ofOperation ctx op = .ok m.header := by
  obtain ⟨header, hheader, h⟩ := Except.bind_eq_ok.mp h
  split at h
  · cases h
  · cases Except.pure_eq_ok.mp h
    exact hheader

/-- A generated operation has a method with its header in an implementation, and nothing else has
one. -/
theorem implementationMethod?_ok {ctx : Context} {op : Operation} {m? : Option Method}
    (h : implementationMethod? ctx op = .ok m?) :
    (op.isGenerated = false ∧ m? = none) ∨
      ∃ m, m? = some m ∧ op.isGenerated = true ∧
        MethodHeader.ofOperation ctx op = .ok m.header := by
  unfold implementationMethod? at h
  split at h
  · next hkind =>
    cases h
    exact .inl ⟨by rw [Operation.isGenerated, hkind], rfl⟩
  all_goals
    next hkind =>
    obtain ⟨compute, _, h⟩ := Except.bind_eq_ok.mp h
    obtain ⟨m, hm, h⟩ := Except.bind_eq_ok.mp h
    cases Except.pure_eq_ok.mp h
    exact .inr ⟨m, rfl, by rw [Operation.isGenerated, hkind], methodWith_ok hm⟩

/-- The parts of an implementation are those of its DAO. -/
theorem DaoImpl.ofDao_ok {ctx : Context} {dao : Dao} {d : DaoImpl} (h : ofDao ctx dao = .ok d) :
    nameOf ctx dao.name = .ok d.name ∧ cratePath dao.name = .ok d.interface ∧
      List.Forall₂ (fun op m => implementationMethod? ctx op = .ok (some m))
        (dao.operations.filter (·.isGenerated)) d.methods := by
  obtain ⟨name, hname, h⟩ := Except.bind_eq_ok.mp h
  obtain ⟨interface, hinterface, h⟩ := Except.bind_eq_ok.mp h
  obtain ⟨_, _, h⟩ := Except.bind_eq_ok.mp h
  obtain ⟨methods, hmethods, h⟩ := Except.bind_eq_ok.mp h
  obtain ⟨found, hfound, hmethods⟩ := Except.bind_eq_ok.mp hmethods
  cases Except.pure_eq_ok.mp h
  cases Except.pure_eq_ok.mp hmethods
  refine ⟨hname, hinterface, forall₂_generated (fun op m? hop => ?_) hfound⟩
  rcases implementationMethod?_ok hop with ⟨hnot, rfl⟩ | ⟨m, rfl, hgenerated, _⟩
  · exact hnot.symm
  · exact hgenerated.symm

namespace Replication

/-- A generated operation has a method with its header in a wrapper, and nothing else has one. -/
theorem method?_ok {ctx : Context} {op : Operation} {m? : Option Method}
    (h : method? ctx op = .ok m?) :
    (op.isGenerated = false ∧ m? = none) ∨
      ∃ m recording?, m? = some m ∧ op.isGenerated = true ∧
        MethodHeader.ofOperation ctx op = .ok m.header ∧
        Recording.ofOperation? ctx op = .ok recording? ∧
        m.body = match recording? with
          | some recording => recordingBody ctx op m.header recording
          | none => { result := some (innerCall op m.header) } := by
  unfold method? at h
  split at h
  · next hnot =>
    cases h
    exact .inl ⟨by simpa using hnot, rfl⟩
  · next hgenerated =>
    obtain ⟨header, hheader, h⟩ := Except.bind_eq_ok.mp h
    obtain ⟨recording?, hrecording, h⟩ := Except.bind_eq_ok.mp h
    cases Except.pure_eq_ok.mp h
    exact .inr ⟨_, recording?, rfl, by simpa using hgenerated, hheader, hrecording, rfl⟩

/-- The parts of a wrapper are those of its DAO. -/
theorem ofDao_ok {ctx : Context} {dao : Dao} {r : Replication} (h : ofDao ctx dao = .ok r) :
    cratePath dao.name = .ok r.interface ∧
      List.Forall₂ (fun op m => method? ctx op = .ok (some m))
        (dao.operations.filter (·.isGenerated)) r.methods := by
  obtain ⟨_, _, h⟩ := Except.bind_eq_ok.mp h
  obtain ⟨interface, hinterface, h⟩ := Except.bind_eq_ok.mp h
  obtain ⟨_, _, h⟩ := Except.bind_eq_ok.mp h
  obtain ⟨methods, hmethods, h⟩ := Except.bind_eq_ok.mp h
  obtain ⟨found, hfound, hmethods⟩ := Except.bind_eq_ok.mp hmethods
  cases Except.pure_eq_ok.mp h
  cases Except.pure_eq_ok.mp hmethods
  refine ⟨hinterface, forall₂_generated (fun op m? hop => ?_) hfound⟩
  rcases method?_ok hop with ⟨hnot, rfl⟩ | ⟨m, _, rfl, hgenerated, _⟩
  · exact hnot.symm
  · exact hgenerated.symm

end Replication

end DaoGen.Emission
