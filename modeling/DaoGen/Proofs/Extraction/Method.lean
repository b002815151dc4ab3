import DaoGen.Declaration.Collection
import DaoGen.Proofs.Extraction.Accepted

/-!
# Operations and their methods

An operation has what its method declares: the parameters without the one that receives the result,
the way in which the result is delivered, its normal form, and what the attributes say is to be
done. Exactly the methods that declare an operation in this sense are accepted.

## Main definitions

* `Signature.HasDelivery`: how a method delivers its result, and the parameters that are left.
* `Operation.IsDeclaredBy`: an operation is the one that a method declares.

## Main results

* `Operation.ofMethod_iff`: the operation that is read is the one that is declared.
* `Operation.ofMember_accepts`: which members are accepted, and which are refused.
-/
namespace DaoGen

/-! ## Delivery -/

/-- A type of parameters that receive a result: a `Continuation` with one argument that is known. -/
def TypeRef.TakesResult (t : TypeRef) : Prop :=
  t.simpleName = "Continuation" ∧ ∃ projection u, t.args = [.type projection u]

theorem TypeRef.isContinuation_iff {t : TypeRef} : t.isContinuation = true ↔ t.TakesResult := by
  rw [isContinuation, Bool.and_eq_true, beq_iff_eq, TakesResult]
  refine and_congr_right fun _ => ?_
  split
  · next projection u hargs => simp [hargs]
  · next hargs =>
    refine ⟨nofun, fun ⟨projection, u, hone⟩ => ?_⟩
    exact absurd hone (hargs projection u)

namespace Signature

/-- A method hands its result to its last parameter or returns it. The parameters besides that one
are those that the caller supplies. -/
inductive HasDelivery (signature : Signature) : Suspension → List Param → Prop where
  | continuation {params : List Param} {param : Param}
    (hparams : signature.params = params ++ [param]) (hty : param.ty.TakesResult)
    (hasync : signature.isAsync = false) (hreturns : ∀ ty ∈ signature.returns, ty.isUnit = true) :
    HasDelivery signature (.continuation param.name param.ty) params
  | async (hlast : ∀ params param, signature.params = params ++ [param] → ¬ param.ty.TakesResult)
    (hasync : signature.isAsync = true) : HasDelivery signature .async signature.params
  | blocking (hlast : ∀ params param, signature.params = params ++ [param] → ¬ param.ty.TakesResult)
    (hasync : signature.isAsync = false) : HasDelivery signature .blocking signature.params

variable {signature : Signature}

/-- There is no continuation just if the last parameter is none. -/
theorem continuation?_eq_none : signature.continuation? = none ↔
    ∀ params param, signature.params = params ++ [param] → ¬ param.ty.TakesResult := by
  rw [continuation?]
  constructor
  · intro hnone params param hparams hty
    have hlast : signature.params.getLast? = some param := by simp [hparams]
    rw [hlast, Option.filter_some, if_pos (TypeRef.isContinuation_iff.mpr hty)] at hnone
    cases hnone
  · intro hlast
    rw [Option.filter_eq_none_iff]
    intro param hparam hty
    obtain ⟨params, hparams⟩ := List.getLast?_eq_some_iff.mp hparam
    exact hlast params param hparams (TypeRef.isContinuation_iff.mp hty)

theorem continuation?_append {params : List Param} {param : Param}
    (hparams : signature.params = params ++ [param]) (hty : param.ty.TakesResult) :
    signature.continuation? = some param ∧ signature.logicalParams = params := by
  have hsome : signature.continuation? = some param := by
    simp [continuation?, hparams, TypeRef.isContinuation_iff.mpr hty]
  exact ⟨hsome, by simp [logicalParams, hsome, hparams]⟩

theorem hasDelivery_iff {suspension : Suspension} {params : List Param} :
    signature.HasDelivery suspension params ↔
      Suspension.ofSignature signature = .ok suspension ∧ signature.logicalParams = params := by
  rw [Suspension.ofSignature_eq_ok]
  constructor
  · intro h
    cases h with
    | continuation hparams hty hasync hreturns =>
      obtain ⟨hsome, hlogical⟩ := continuation?_append hparams hty
      exact ⟨.inl ⟨_, hsome, hasync, hreturns, rfl⟩, hlogical⟩
    | async hlast hasync | blocking hlast hasync =>
      have hnone := continuation?_eq_none.mpr hlast
      exact ⟨.inr ⟨hnone, by simp [hasync]⟩, logicalParams_of_none hnone⟩
  · rintro ⟨⟨param, hsome, hasync, hreturns, rfl⟩ | ⟨hnone, rfl⟩, rfl⟩
    · obtain ⟨hparams, hty⟩ := params_of_some hsome
      exact .continuation hparams (TypeRef.isContinuation_iff.mp hty) hasync hreturns
    · rw [logicalParams_of_none hnone]
      have hlast := continuation?_eq_none.mp hnone
      cases hasync : signature.isAsync with
      | true => exact .async hlast hasync
      | false => exact .blocking hlast hasync

end Signature

/-! ## Operations -/

theorem checkDbTypes_eq_ok {params : List LogicalParam} :
    checkDbTypes params = .ok () ↔
      ∀ param ∈ params, param.dbType = true → param.ty.normalize.isInteger = true := by
  unfold checkDbTypes
  split
  · next param hfind =>
    have hbad := List.find?_some hfind
    have hmem := List.mem_of_find?_eq_some hfind
    rw [Bool.and_eq_true, Bool.not_eq_true'] at hbad
    refine ⟨nofun, fun hall => ?_⟩
    cases hbad.2.symm.trans (hall param hmem hbad.1)
  · next hfind => simpa using hfind

namespace Operation

/-- An operation is the one that a method declares with the given annotations. -/
structure IsDeclaredBy (scope : Scope) (member : Member) (signature : Signature)
    (annotations : List Annotation) (op : Operation) : Prop where
  name : op.name = member.name
  location : op.location = member.location
  declaredReturn : op.declaredReturn = signature.returns
  delivery : ∃ params, signature.HasDelivery op.suspension params ∧ op.params = params.map .ofParam
  dbTypes : ∀ param ∈ op.params, param.dbType = true → param.ty.normalize.isInteger = true
  returnType : op.returnType = op.declaredResult.normalize
  kind : op.kind.IsMarked annotations signature.hasBody
  write : ∀ write, op.kind = .write write →
    Write.ofParams scope write.op op.params op.returnType = .ok write
  annotations : op.annotations = annotations

variable {scope : Scope} {member : Member} {signature : Signature} {annotations : List Annotation}
  {op : Operation}

/-- The declared result of an operation is that of its method. -/
theorem declaredResult_eq (hsuspension : Suspension.ofSignature signature = .ok op.suspension)
    (hreturn : op.declaredReturn = signature.returns) : op.declaredResult = signature.result := by
  unfold declaredResult Signature.result
  obtain ⟨param, hsome, _, hop⟩ | ⟨hnone, hop⟩ := Suspension.ofSignature_ok hsuspension
  · rw [hop, hsome]
  · rw [hop, hnone]
    cases signature.isAsync <;> exact congrArg (·.getD .unit) hreturn

theorem ofMethod_iff :
    ofMethod scope member signature annotations = .ok op ↔
      op.IsDeclaredBy scope member signature annotations := by
  rw [ofMethod_eq_ok, checkDbTypes_eq_ok, OperationKind.ofAnnotations_eq_ok]
  constructor
  · rintro ⟨hname, hlocation, hannotations, hreturn, hsuspension, hparams, htypes, hresult,
      hkind, hwrite⟩
    refine ⟨hname, hlocation, hreturn, ⟨_, ?_, hparams⟩, htypes, ?_, hkind, hwrite, hannotations⟩
    · exact Signature.hasDelivery_iff.mpr ⟨hsuspension, rfl⟩
    · rw [hresult, declaredResult_eq hsuspension hreturn]
  · intro h
    obtain ⟨params, hdelivery, hparams⟩ := h.delivery
    obtain ⟨hsuspension, rfl⟩ := Signature.hasDelivery_iff.mp hdelivery
    refine ⟨h.name, h.location, h.annotations, h.declaredReturn, hsuspension, hparams, h.dbTypes,
      ?_, h.kind, h.write⟩
    rw [h.returnType, declaredResult_eq hsuspension h.declaredReturn]

/-- An operation hands on its result just if the last parameter of its method can take it. -/
theorem IsDeclaredBy.isContinuationStyle_iff
    (h : op.IsDeclaredBy scope member signature annotations) :
    op.isContinuationStyle = true ↔
      ∃ params param, signature.params = params ++ [param] ∧ param.ty.TakesResult := by
  obtain ⟨params, hdelivery, _⟩ := h.delivery
  unfold isContinuationStyle
  generalize op.suspension = suspension at hdelivery
  cases hdelivery with
  | continuation hparams hty => simpa using ⟨_, _, hparams, hty⟩
  | async hlast | blocking hlast => simpa using hlast

/-- An operation that has to wait is a write, of an entity that was put off. -/
theorem ofMethod_unresolved {name : String}
    (h : ofMethod scope member signature annotations = .error (.unresolved name)) :
    (∃ kind : OperationKind, kind.IsMarked annotations signature.hasBody) ∧
      scope.entity name = .deferred := by
  unfold ofMethod at h
  obtain h | ⟨_, _, h⟩ := Except.bind_eq_error.mp h
  · obtain ⟨_, _, hfault⟩ := Except.mapError_eq_error.mp h
    cases hfault
  obtain h | ⟨_, _, h⟩ := Except.bind_eq_error.mp h
  · obtain ⟨_, _, hfault⟩ := Except.mapError_eq_error.mp h
    cases hfault
  obtain h | ⟨_, _, h⟩ := Except.bind_eq_error.mp h
  · exact OperationKind.ofAnnotations_unresolved h
  · cases h

theorem ofMember_unresolved {source : DeclarationSource} {name : String}
    (h : ofMember source scope member = .error (.unresolved name)) :
    (∃ signature, member.kind = .method signature ∧ ∃ kind : OperationKind,
        kind.IsMarked (source.annotationsOf member) signature.hasBody) ∧
      scope.entity name = .deferred := by
  unfold ofMember at h
  split at h
  · cases h
  · next signature hkind =>
    split at h
    · cases h
    · dsimp only at h
      split at h
      · cases h
      · obtain ⟨hmarked, hdeferred⟩ := ofMethod_unresolved h
        exact ⟨⟨signature, hkind, hmarked⟩, hdeferred⟩

/-- A member is accepted just if it is a method with a receiver and valid attributes that declares
the operation. The operation keeps the body of its method if there is one, and hands on its result
if the last parameter can take it. A member whose attributes conflict is at fault. -/
theorem ofMember_accepts (source : DeclarationSource) (scope : Scope) (member : Member) :
    (∀ op, ofMember source scope member = .ok op ↔
      ∃ signature, member.kind = .method signature ∧ signature.receiver = true ∧
        Annotation.hasInvalid (source.annotationsOf member) = false ∧
        op.IsDeclaredBy scope member signature (source.annotationsOf member)) ∧
    (∀ op, ofMember source scope member = .ok op →
      (op.kind = .custom ↔ member.isAbstract = false)) ∧
    ∀ signature, member.kind = .method signature →
      (∀ op, ofMember source scope member = .ok op →
        (op.isContinuationStyle = true ↔
          ∃ params param, signature.params = params ++ [param] ∧ param.ty.TakesResult)) ∧
      (OperationKind.Conflict (source.annotationsOf member) signature.hasBody →
        ∃ fault, ofMember source scope member = .error (.fault fault)) := by
  have haccepted : ∀ op, ofMember source scope member = .ok op ↔
      ∃ signature, member.kind = .method signature ∧ signature.receiver = true ∧
        Annotation.hasInvalid (source.annotationsOf member) = false ∧
        op.IsDeclaredBy scope member signature (source.annotationsOf member) := by
    intro op
    simp only [ofMember_eq_ok, ofMethod_iff]
  refine ⟨haccepted, fun op h => ?_, fun signature hkind => ⟨fun op h => ?_, fun hconflict => ?_⟩⟩
  · rw [isGenerated_of_ofMember h, isGenerated]
    cases op.kind <;> simp
  · obtain ⟨_, hkind', _, _, hdeclared⟩ := (haccepted op).mp h
    cases hkind.symm.trans hkind'
    exact hdeclared.isContinuationStyle_iff
  · cases h : ofMember source scope member with
    | ok op =>
      obtain ⟨_, hkind', _, _, hdeclared⟩ := (haccepted op).mp h
      cases hkind.symm.trans hkind'
      exact absurd hconflict hdeclared.kind.not_conflict
    | error rejection =>
      cases rejection with
      | fault fault => exact ⟨fault, rfl⟩
      | unresolved name =>
        obtain ⟨⟨_, hkind', kind, hmarked⟩, _⟩ := ofMember_unresolved h
        cases hkind.symm.trans hkind'
        exact absurd hconflict hmarked.not_conflict

end Operation

/-! ## Operations of files -/

/-- An operation is one of a DAO that is declared in the code of a file without entities. -/
structure Declares (code : String) (c : Collection) (dao : Dao) (op : Operation) : Prop where
  collected : Collection.add {} "db.rs" "db" code = .ok c
  accepted : ∃ d ∈ c.source.ofKind .dao, Dao.ofDeclaration c.source ⟨{}, []⟩ d = .ok dao
  mem : op ∈ dao.operations

/-- Whether the code of a file declares an operation for which a test holds. -/
def declaresAny (code : String) (p : Dao → Operation → Bool) : Bool :=
  (Collection.add {} "db.rs" "db" code).toOption.any fun c =>
    (c.source.ofKind .dao).any fun d =>
      (Dao.ofDeclaration c.source ⟨{}, []⟩ d).toOption.any fun dao => dao.operations.any (p dao)

theorem exists_of_declaresAny {code : String} {p : Dao → Operation → Bool}
    (h : declaresAny code p = true) : ∃ c dao op, Declares code c dao op ∧ p dao op = true := by
  obtain ⟨c, hc, hdaos⟩ := Except.exists_of_any h
  obtain ⟨d, hd, hdao⟩ := List.any_eq_true.mp hdaos
  obtain ⟨dao, hdao, hoperations⟩ := Except.exists_of_any hdao
  obtain ⟨op, hop, hp⟩ := List.any_eq_true.mp hoperations
  exact ⟨c, dao, op, ⟨hc, ⟨d, hd, hdao⟩, hop⟩, hp⟩

end DaoGen
