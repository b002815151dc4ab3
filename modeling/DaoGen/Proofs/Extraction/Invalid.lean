import DaoGen.Declaration.Collection
import DaoGen.Proofs.Extraction.Method
import DaoGen.Proofs.Extraction.WellFormed

/-!
# Invalid attributes

A declaration with an invalid attribute of its own or of one of its members is not modeled. The
attributes of the parameters of a DAO are a gap: invalid ones have no effect, so that the DAO is
modeled just if it would be without them.

## Main results

* `Operation.ofMethod_valid`: invalid attributes of parameters have no effect.
* `Declaration.outcome_invalid`: what becomes of a declaration with invalid attributes.
-/
namespace DaoGen

/-! ## Parameters without invalid attributes -/

/-- The attributes that are not invalid. -/
def Annotation.valid (annotations : List Annotation) : List Annotation :=
  annotations.filter (!·.isInvalid)

theorem Annotation.hasDbType_valid (annotations : List Annotation) :
    hasDbType (valid annotations) = hasDbType annotations := by
  rw [hasDbType, hasDbType, Bool.eq_iff_iff, List.contains_iff_mem, List.contains_iff_mem, valid,
    List.mem_filter]
  exact and_iff_left rfl

/-- A parameter without its invalid attributes. -/
def Param.valid (param : Param) : Param :=
  { param with annotations := Annotation.valid param.annotations }

@[simp] theorem LogicalParam.ofParam_valid (param : Param) :
    LogicalParam.ofParam param.valid = LogicalParam.ofParam param := by
  simp [ofParam, Param.valid, Annotation.hasDbType_valid]

namespace Signature

/-- A signature without the invalid attributes of its parameters. -/
def valid (signature : Signature) : Signature :=
  { signature with params := signature.params.map Param.valid }

variable (signature : Signature)

theorem continuation?_valid :
    signature.valid.continuation? = signature.continuation?.map .valid := by
  rw [continuation?, valid, List.getLast?_map, continuation?]
  cases signature.params.getLast? with
  | none => rfl
  | some param =>
    rw [Option.map_some, Option.filter_some, Option.filter_some, Param.valid]
    split <;> rfl

theorem logicalParams_valid :
    signature.valid.logicalParams = signature.logicalParams.map .valid := by
  rw [logicalParams, logicalParams, continuation?_valid, Option.isSome_map]
  split
  · exact (List.map_dropLast ..).symm
  · rfl

theorem result_valid : signature.valid.result = signature.result := by
  rw [result, result, continuation?_valid]
  cases signature.continuation? <;> rfl

theorem ofSignature_valid :
    Suspension.ofSignature signature.valid = Suspension.ofSignature signature := by
  rw [Suspension.ofSignature, Suspension.ofSignature, continuation?_valid]
  cases signature.continuation? <;> rfl

end Signature

/-- Invalid attributes of parameters have no effect on an operation. -/
theorem Operation.ofMethod_valid (scope : Scope) (member : Member) (signature : Signature)
    (annotations : List Annotation) :
    ofMethod scope member signature.valid annotations =
      ofMethod scope member signature annotations := by
  have hparams : signature.valid.logicalParams.map LogicalParam.ofParam =
      signature.logicalParams.map .ofParam := by
    simp [signature.logicalParams_valid, Function.comp_def]
  rw [ofMethod, ofMethod, signature.ofSignature_valid, hparams, signature.result_valid]
  rfl

/-! ## Declarations -/

/-- Whether a parameter of a method has an invalid attribute. -/
def Member.hasInvalidParam (member : Member) : Bool :=
  match member.kind with
  | .field _ => false
  | .method signature => signature.params.any fun param => Annotation.hasInvalid param.annotations

namespace Declaration

/-- A declaration or one of its members has an invalid attribute. -/
def HasInvalid (source : DeclarationSource) (d : Declaration) : Prop :=
  Annotation.hasInvalid d.annotations = true ∨
    ∃ members, source.members d = .ok members ∧
      ∃ member ∈ members, Annotation.hasInvalid (source.annotationsOf member) = true

/-- A parameter of a method of a declaration has an invalid attribute. -/
def HasInvalidParam (source : DeclarationSource) (d : Declaration) : Prop :=
  ∃ members, source.members d = .ok members ∧ ∃ member ∈ members, member.hasInvalidParam = true

end Declaration

/-- A rejection is that of a declaration: it has a fault, or it names an entity that was put off. -/
def Rejection.IsOf (scope : Scope) (d : Declaration) : Rejection → Prop
  | .malformed error => error.declaration = d.name
  | .unresolved reference =>
    reference.declaration = d.name ∧ scope.entity reference.reference = .deferred

/-- An entity is malformed if there is an invalid attribute anywhere: parameters are those of
members that are no fields. -/
theorem Entity.outcome_of_hasInvalid {source : DeclarationSource} {d : Declaration}
    (h : d.HasInvalid source ∨ d.HasInvalidParam source) :
    ∃ fault, (ofDeclaration source d).outcome = .error (d.malformed fault) := by
  unfold ofDeclaration
  split
  · exact ⟨_, rfl⟩
  · next hvalid =>
    have hvalid := Annotation.firstInvalid?_eq_none.mp hvalid
    have hmember : ∃ members, source.members d = .ok members ∧ ∃ member ∈ members,
        Annotation.hasInvalid (source.annotationsOf member) = true ∨
          member.hasInvalidParam = true := by
      obtain (hown | ⟨members, hmembers, member, hmem, hinvalid⟩) |
        ⟨members, hmembers, member, hmem, hinvalid⟩ := h
      · cases hvalid.symm.trans hown
      · exact ⟨members, hmembers, member, hmem, .inl hinvalid⟩
      · exact ⟨members, hmembers, member, hmem, .inr hinvalid⟩
    obtain ⟨members, hmembers, member, hmem, hinvalid⟩ := hmember
    simp only [hmembers]
    cases hfields : fieldsOf source members with
    | error fault => exact ⟨fault, rfl⟩
    | ok fields =>
      obtain ⟨hfields, _⟩ := fieldsOf_eq_ok.mp hfields
      obtain ⟨field, _, hfield⟩ := hfields.exists_right hmem
      obtain ⟨hkind, hvalid, _⟩ := fieldOf_eq_ok.mp hfield
      simp [hvalid, Member.hasInvalidParam, hkind] at hinvalid

/-- A DAO is at fault or waits for an entity that was put off, unless its members are not known. -/
theorem Dao.rejection_isOf {source : DeclarationSource} {scope : Scope} {d : Declaration}
    (h : Annotation.hasInvalid d.annotations = true ∨
      ∃ members, source.members d = .ok members) :
    (ofDeclaration source scope d).FailsOnly (Rejection.IsOf scope d) := by
  unfold ofDeclaration
  split
  · exact .error rfl
  · next hvalid =>
    have hvalid := Annotation.firstInvalid?_eq_none.mp hvalid
    obtain hinvalid | ⟨members, hmembers⟩ := h
    · cases hvalid.symm.trans hinvalid
    rw [hmembers]
    refine .bind (.ok members) fun members => ?_
    refine .bind (.mapM fun member _ => ?_) fun operations => .pure _
    intro rejection h
    obtain ⟨cause, hcause, rfl⟩ := Except.mapError_eq_error.mp h
    cases cause with
    | fault fault => rfl
    | unresolved name => exact ⟨rfl, (Operation.ofMember_unresolved hcause).2⟩

namespace Declaration

theorem not_hasInvalid_iff {source : DeclarationSource} {d : Declaration} {members : List Member}
    (hmembers : source.members d = .ok members) :
    ¬ d.HasInvalid source ↔ Annotation.hasInvalid d.annotations = false ∧
      ∀ member ∈ members, Annotation.hasInvalid (source.annotationsOf member) = false := by
  simp [HasInvalid, hmembers]

/-- The operations of an accepted DAO do not depend on invalid attributes of parameters, and there
are none of these elsewhere. -/
theorem dao_eq_ok_iff {source : DeclarationSource} {scope : Scope} {d : Declaration} {dao : Dao} :
    Dao.ofDeclaration source scope d = .ok dao ↔
      ¬ d.HasInvalid source ∧ dao.name = d.name ∧ dao.location = d.location ∧
        ∃ members, source.members d = .ok members ∧
          List.Forall₂ (fun member op => ∃ signature, member.kind = .method signature ∧
            signature.receiver = true ∧
            Operation.ofMethod scope member signature.valid (source.annotationsOf member) = .ok op)
            members dao.operations := by
  rw [Dao.ofDeclaration_eq_ok]
  simp only [Operation.ofMethod_valid]
  constructor
  · rintro ⟨hvalid, hname, hlocation, members, hmembers, hoperations⟩
    refine ⟨(not_hasInvalid_iff hmembers).mpr ⟨hvalid, fun member hmember => ?_⟩, hname, hlocation,
      members, hmembers, hoperations.imp fun member op h => ?_⟩
    · obtain ⟨op, _, h⟩ := hoperations.exists_right hmember
      obtain ⟨_, _, _, hvalid, _⟩ := Operation.ofMember_eq_ok.mp h
      exact hvalid
    · obtain ⟨signature, hkind, hreceiver, _, hmethod⟩ := Operation.ofMember_eq_ok.mp h
      exact ⟨signature, hkind, hreceiver, hmethod⟩
  · rintro ⟨hvalid, hname, hlocation, members, hmembers, hoperations⟩
    obtain ⟨hown, hall⟩ := (not_hasInvalid_iff hmembers).mp hvalid
    have hmethods := (List.forall₂_and_left _ _).mpr ⟨hall, hoperations⟩
    refine ⟨hown, hname, hlocation, members, hmembers, hmethods.imp fun member op h => ?_⟩
    obtain ⟨hvalid, signature, hkind, hreceiver, hmethod⟩ := h
    exact Operation.ofMember_eq_ok.mpr ⟨signature, hkind, hreceiver, hvalid, hmethod⟩

/-- Invalid attributes of a declaration or of its members are errors, and so are those of parameters
for an entity. For a DAO the latter are as good as absent. -/
theorem outcome_invalid (source : DeclarationSource) (d : Declaration) :
    (d.HasInvalid source ∨ d.HasInvalidParam source →
      ∃ fault, (Entity.ofDeclaration source d).outcome = .error (d.malformed fault)) ∧
    (∀ scope, d.HasInvalid source → ∃ rejection,
      Dao.ofDeclaration source scope d = .error rejection ∧ rejection.IsOf scope d) ∧
    (∀ reference, source.members d = .error reference →
      Annotation.hasInvalid d.annotations = false →
        (Entity.ofDeclaration source d).outcome = .error (.unresolved reference) ∧
          ∀ scope, Dao.ofDeclaration source scope d = .error (.unresolved reference)) ∧
    ∀ scope dao, Dao.ofDeclaration source scope d = .ok dao ↔
      ¬ d.HasInvalid source ∧ dao.name = d.name ∧ dao.location = d.location ∧
        ∃ members, source.members d = .ok members ∧
          List.Forall₂ (fun member op => ∃ signature, member.kind = .method signature ∧
            signature.receiver = true ∧
            Operation.ofMethod scope member signature.valid (source.annotationsOf member) = .ok op)
            members dao.operations := by
  refine ⟨Entity.outcome_of_hasInvalid, fun scope hinvalid => ?_, fun reference href hvalid => ?_,
    fun scope dao => dao_eq_ok_iff⟩
  · cases h : Dao.ofDeclaration source scope d with
    | ok dao => exact absurd hinvalid (dao_eq_ok_iff.mp h).1
    | error rejection =>
      have hknown := hinvalid.imp_right fun ⟨members, hmembers, _⟩ =>
        Exists.intro members hmembers
      exact ⟨rejection, rfl, Dao.rejection_isOf hknown rejection h⟩
  · have hnone := Annotation.firstInvalid?_eq_none.mpr hvalid
    refine ⟨?_, fun scope => ?_⟩
    · simp only [Entity.ofDeclaration, hnone, href]
    · simp only [Dao.ofDeclaration, hnone, href]
      rfl

/-- The code of a DAO whose only method has a parameter with an invalid attribute. -/
def invalidParamCode : String :=
  "#[dao] pub trait TagDao \x7b #[query(\"SELECT 1\")] " ++
    "async fn one(&self, #[db_type(sqlite)] db: i32) -> i64; \x7d"

/-- A DAO is modeled although a parameter has an invalid attribute. -/
theorem exists_dao_of_invalidParam :
    ∃ c, Collection.add {} "db.rs" "db" invalidParamCode = .ok c ∧
      ∃ d ∈ c.source.declarations, d.HasInvalidParam c.source ∧
        ∃ dao, Dao.ofDeclaration c.source ⟨{}, []⟩ d = .ok dao := by
  have hany : (Collection.add {} "db.rs" "db" invalidParamCode).toOption.any (fun c =>
      c.source.declarations.any fun d =>
        (c.source.members d).toOption.any (fun members => members.any Member.hasInvalidParam) &&
          (Dao.ofDeclaration c.source ⟨{}, []⟩ d).toOption.isSome) = true := by
    decide +kernel
  obtain ⟨c, hc, hdeclarations⟩ := Except.exists_of_any hany
  obtain ⟨d, hd, hboth⟩ := List.any_eq_true.mp hdeclarations
  obtain ⟨hparams, hdao⟩ := Bool.and_eq_true_iff.mp hboth
  obtain ⟨members, hmembers, hinvalid⟩ := Except.exists_of_any hparams
  obtain ⟨member, hmember, hparam⟩ := List.any_eq_true.mp hinvalid
  obtain ⟨dao, hdao⟩ := Option.isSome_iff_exists.mp hdao
  exact ⟨c, hc, d, hd, ⟨members, hmembers, member, hmember, hparam⟩, dao,
    Except.toOption_eq_some.mp hdao⟩

end Declaration

end DaoGen
