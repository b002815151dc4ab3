import DaoGen.Proofs.Extraction.Kind

/-!
# Accepted declarations

What is known of a declaration once its model has been built. Each lemma reads the success of one
function as the rule that it checks.
-/
namespace DaoGen

/-! ## Attributes -/

namespace Annotation

def isInvalid : Annotation → Bool
  | .invalid _ _ => true
  | _ => false

/-- Whether there is a known attribute with arguments that it cannot take. -/
def hasInvalid (annotations : List Annotation) : Bool := annotations.any isInvalid

theorem firstInvalid?_eq_none {annotations : List Annotation} :
    firstInvalid? annotations = none ↔ hasInvalid annotations = false := by
  rw [firstInvalid?, List.findSome?_eq_none_iff, hasInvalid, List.any_eq_false]
  refine forall₂_congr fun a _ => ?_
  cases a <;> simp [isInvalid]

end Annotation

/-! ## Names -/

namespace Scope

/-- A name that is found is one of the modeled names. -/
theorem mem_of_resolve {scope : Scope} {modeled : List QualifiedName} {written : String}
    {name : QualifiedName} (h : scope.resolve modeled written = .found name) : name ∈ modeled := by
  unfold resolve at h
  dsimp only at h
  split at h
  · next hfit =>
    cases h
    exact List.mem_of_mem_filter (hfit ▸ List.mem_singleton_self name)
  · split at h <;> cases h
  · cases h

theorem mem_of_entity {scope : Scope} {written : String} {name : QualifiedName}
    (h : scope.entity written = .found name) :
    ∃ entity ∈ scope.model.entities, entity.name = name :=
  List.mem_map.mp (mem_of_resolve h)

theorem mem_of_dao {scope : Scope} {written : String} {name : QualifiedName}
    (h : scope.dao written = .found name) : ∃ dao ∈ scope.model.daos, dao.name = name :=
  List.mem_map.mp (mem_of_resolve h)

end Scope

/-! ## Entities -/

namespace Entity

/-- There is one field marked as the key; its values are always present, and integers if they are
generated. -/
def HasKey (fields : List Field) : Prop :=
  ∃ key, fields.filter (·.primaryKey) = [key] ∧ key.nullable = false ∧
    (key.autoGenerate = true → key.canonicalType.isInteger = true)

theorem checkKey_eq_ok {fields : List Field} : checkKey fields = .ok () ↔ HasKey fields := by
  unfold checkKey HasKey
  split
  · next hnone => simp [hnone]
  · next key hkey =>
    cases hnullable : key.nullable <;> cases hauto : key.autoGenerate <;>
      simp [hkey, hnullable, hauto]
  · next hnone hone =>
    refine ⟨nofun, fun ⟨key, hkey, _⟩ => ?_⟩
    exact absurd hkey (hone key)

theorem fieldsOf_eq_ok {source : DeclarationSource} {members : List Member}
    {fields : List Field} :
    fieldsOf source members = .ok fields ↔
      List.Forall₂ (fun member field => fieldOf source member = .ok field) members fields ∧
        HasKey fields := by
  simp only [fieldsOf, Except.bind_eq_ok, Except.mapM_eq_ok, Except.pure_eq_ok]
  constructor
  · rintro ⟨fields, hfields, ⟨⟩, hkey, rfl⟩
    exact ⟨hfields, checkKey_eq_ok.mp hkey⟩
  · rintro ⟨hfields, hkey⟩
    exact ⟨fields, hfields, (), checkKey_eq_ok.mpr hkey, rfl⟩

theorem ofFields_eq_ok {d : Declaration} {fields : List Field}
    {roles : List (AttachmentRole × Nat)} {entity : Entity} :
    ofFields d fields roles = .ok entity ↔
      entity.name = d.name ∧ entity.table = tableOf d ∧ entity.location = d.location ∧
        entity.fields = fields ∧
        Attachment.ofRoles (declaresAttachment d) fields roles = .ok entity.attachment ∧
        Index.ofSpecs (tableOf d) fields (indexSpecs d) = .ok entity.indices := by
  simp only [ofFields, Except.bind_eq_ok, Except.pure_eq_ok]
  constructor
  · rintro ⟨attachment, hattachment, indices, hindices, rfl⟩
    exact ⟨rfl, rfl, rfl, rfl, hattachment, hindices⟩
  · obtain ⟨name, table, fields, indices, attachment, location⟩ := entity
    rintro ⟨rfl, rfl, rfl, rfl, hattachment, hindices⟩
    exact ⟨attachment, hattachment, indices, hindices, rfl⟩

/-- An entity is accepted if each check is passed. -/
theorem ofDeclaration_eq_ok {source : DeclarationSource} {d : Declaration} {entity : Entity} :
    (ofDeclaration source d).outcome = .ok entity ↔
      Annotation.hasInvalid d.annotations = false ∧
        ∃ members fields, source.members d = .ok members ∧
          fieldsOf source members = .ok fields ∧
          ofFields d fields (rolePlaces source members) = .ok entity := by
  unfold ofDeclaration
  rw [← Annotation.firstInvalid?_eq_none]
  split
  · next hinvalid => simp [hinvalid]
  · next hvalid =>
    split
    · next hmembers => simp [hmembers]
    · next members hmembers =>
      split
      · next hfields => simp [hmembers, hfields]
      · next fields hfields => simp [hvalid, hmembers, hfields, Except.mapError_eq_ok]

/-- An accepted entity has the name of its declaration, and a primary key. -/
theorem ofDeclaration_ok {source : DeclarationSource} {d : Declaration} {entity : Entity}
    (h : (ofDeclaration source d).outcome = .ok entity) :
    entity.name = d.name ∧ ∃ key, entity.primaryKey? = some key := by
  obtain ⟨_, members, fields, _, hfields, h⟩ := ofDeclaration_eq_ok.mp h
  obtain ⟨hname, _, _, rfl, _⟩ := ofFields_eq_ok.mp h
  obtain ⟨_, key, hkey, _⟩ := fieldsOf_eq_ok.mp hfields
  refine ⟨hname, key, ?_⟩
  rw [primaryKey?, ← List.head?_filter, hkey, List.head?_cons]

end Entity

/-! ## Operations -/

namespace Signature

theorem logicalParams_of_none {signature : Signature} (h : signature.continuation? = none) :
    signature.logicalParams = signature.params := by
  simp [logicalParams, h]

/-- A continuation is the last parameter. -/
theorem params_of_some {signature : Signature} {param : Param}
    (h : signature.continuation? = some param) :
    signature.params = signature.logicalParams ++ [param] ∧ param.ty.isContinuation = true := by
  obtain ⟨hlast, hty⟩ := Option.filter_eq_some_iff.mp h
  refine ⟨?_, hty⟩
  rw [logicalParams, h, Option.isSome_some, if_pos rfl]
  exact (List.dropLast_append_getLast? param hlast).symm

end Signature

/-- An accepted method with a continuation hands its result to that; it returns nothing and is not
asynchronous. -/
theorem Suspension.ofSignature_eq_ok {signature : Signature} {suspension : Suspension} :
    Suspension.ofSignature signature = .ok suspension ↔
      (∃ param, signature.continuation? = some param ∧ signature.isAsync = false ∧
          (∀ ty ∈ signature.returns, ty.isUnit = true) ∧
          suspension = .continuation param.name param.ty) ∨
        (signature.continuation? = none ∧
          suspension = if signature.isAsync then .async else .blocking) := by
  unfold Suspension.ofSignature
  split
  · next param hparam =>
    have hunit : signature.returns.any (!·.isUnit) = false ↔
        ∀ ty ∈ signature.returns, ty.isUnit = true := by
      cases signature.returns <;> simp
    rw [hparam, ← hunit]
    constructor
    · intro h
      split at h
      · cases h
      · next hasync =>
        split at h
        · cases h
        · next hreturns =>
          cases h
          rw [Bool.not_eq_true] at hasync hreturns
          exact .inl ⟨param, rfl, hasync, hreturns, rfl⟩
    · rintro (⟨_, hsome, hasync, hreturns, rfl⟩ | ⟨hnone, _⟩)
      · cases hsome
        simp [hasync, hreturns]
      · cases hnone
  · next hnone =>
    rw [hnone]
    constructor
    · intro h
      cases h
      exact .inr ⟨rfl, rfl⟩
    · rintro (⟨_, hsome, _⟩ | ⟨_, rfl⟩)
      · cases hsome
      · rfl

theorem Suspension.ofSignature_ok {signature : Signature} {suspension : Suspension}
    (h : Suspension.ofSignature signature = .ok suspension) :
    (∃ param, signature.continuation? = some param ∧ signature.isAsync = false ∧
        suspension = .continuation param.name param.ty) ∨
      (signature.continuation? = none ∧
        suspension = if signature.isAsync then .async else .blocking) :=
  (ofSignature_eq_ok.mp h).imp_left fun ⟨param, hparam, hasync, _, hsuspension⟩ =>
    ⟨param, hparam, hasync, hsuspension⟩

/-- An accepted operation keeps the body of its method just if there is one. -/
theorem OperationKind.ofAnnotations_custom_iff {scope : Scope} {annotations : List Annotation}
    {hasBody : Bool} {params : List LogicalParam} {result : TypeRef} {kind : OperationKind}
    (h : OperationKind.ofAnnotations scope annotations hasBody params result = .ok kind) :
    kind = .custom ↔ hasBody = true := by
  cases (ofAnnotations_eq_ok.mp h).1 <;> simp

/-- An accepted operation has what its method declares, and a kind that its annotations give it. -/
theorem Operation.ofMethod_eq_ok {scope : Scope} {member : Member} {signature : Signature}
    {annotations : List Annotation} {op : Operation} :
    Operation.ofMethod scope member signature annotations = .ok op ↔
      op.name = member.name ∧ op.location = member.location ∧ op.annotations = annotations ∧
        op.declaredReturn = signature.returns ∧
        Suspension.ofSignature signature = .ok op.suspension ∧
        op.params = signature.logicalParams.map .ofParam ∧
        checkDbTypes op.params = .ok () ∧ op.returnType = signature.result.normalize ∧
        OperationKind.ofAnnotations scope annotations signature.hasBody op.params op.returnType =
          .ok op.kind := by
  simp only [ofMethod, Except.bind_eq_ok, Except.mapError_eq_ok, Except.pure_eq_ok]
  constructor
  · rintro ⟨suspension, hsuspension, ⟨⟩, htypes, kind, hkind, rfl⟩
    exact ⟨rfl, rfl, rfl, rfl, hsuspension, rfl, htypes, rfl, hkind⟩
  · obtain ⟨name, params, suspension, declaredReturn, returnType, kind, annotations, location⟩ := op
    rintro ⟨rfl, rfl, rfl, rfl, hsuspension, rfl, htypes, rfl, hkind⟩
    exact ⟨suspension, hsuspension, (), htypes, kind, hkind, rfl⟩

/-- The kind of an accepted operation is read off its annotations and parameters. -/
theorem Operation.ofMethod_ok {scope : Scope} {member : Member} {signature : Signature}
    {annotations : List Annotation} {op : Operation}
    (h : Operation.ofMethod scope member signature annotations = .ok op) :
    OperationKind.ofAnnotations scope annotations signature.hasBody op.params op.returnType =
      .ok op.kind := by
  obtain ⟨_, _, _, _, _, _, _, _, hkind⟩ := ofMethod_eq_ok.mp h
  exact hkind

/-- An accepted operation has the name, the parameters, the result and the annotations of its
method. -/
theorem Operation.ofMethod_declared {scope : Scope} {member : Member} {signature : Signature}
    {annotations : List Annotation} {op : Operation}
    (h : Operation.ofMethod scope member signature annotations = .ok op) :
    op.name = member.name ∧ op.params = signature.logicalParams.map .ofParam ∧
      Suspension.ofSignature signature = .ok op.suspension ∧
      op.declaredReturn = signature.returns ∧ op.annotations = annotations := by
  obtain ⟨hname, _, hannotations, hreturn, hsuspension, hparams, _⟩ := ofMethod_eq_ok.mp h
  exact ⟨hname, hparams, hsuspension, hreturn, hannotations⟩

/-- The result of an accepted operation is the normal form of that of its method. -/
theorem Operation.returnType_ofMethod {scope : Scope} {member : Member} {signature : Signature}
    {annotations : List Annotation} {op : Operation}
    (h : Operation.ofMethod scope member signature annotations = .ok op) :
    op.returnType = signature.result.normalize := by
  obtain ⟨_, _, _, _, _, _, _, hresult, _⟩ := ofMethod_eq_ok.mp h
  exact hresult

/-- Accepted members are methods with a receiver and no invalid attribute. -/
theorem Operation.ofMember_eq_ok {source : DeclarationSource} {scope : Scope} {member : Member}
    {op : Operation} :
    Operation.ofMember source scope member = .ok op ↔
      ∃ signature, member.kind = .method signature ∧ signature.receiver = true ∧
        Annotation.hasInvalid (source.annotationsOf member) = false ∧
        Operation.ofMethod scope member signature (source.annotationsOf member) = .ok op := by
  unfold Operation.ofMember
  cases member.kind with
  | field ty => simp
  | method signature =>
    rw [← Annotation.firstInvalid?_eq_none]
    cases hreceiver : signature.receiver <;>
      cases hvalid : Annotation.firstInvalid? (source.annotationsOf member) <;>
        simp [hreceiver, hvalid]

theorem Operation.ofMember_ok {source : DeclarationSource} {scope : Scope} {member : Member}
    {op : Operation} (h : Operation.ofMember source scope member = .ok op) :
    ∃ signature, member.kind = .method signature ∧
      Operation.ofMethod scope member signature (source.annotationsOf member) = .ok op := by
  obtain ⟨signature, hkind, _, _, hmethod⟩ := Operation.ofMember_eq_ok.mp h
  exact ⟨signature, hkind, hmethod⟩

/-- Whether a member is a method without a body of its own. -/
def Member.isAbstract (member : Member) : Bool :=
  match member.kind with
  | .field _ => false
  | .method signature => !signature.hasBody

/-- The generated operations are those of the methods without a body. -/
theorem Operation.isGenerated_of_ofMember {source : DeclarationSource} {scope : Scope}
    {member : Member} {op : Operation} (h : Operation.ofMember source scope member = .ok op) :
    member.isAbstract = op.isGenerated := by
  obtain ⟨signature, hkind, hmethod⟩ := Operation.ofMember_ok h
  have hcustom := OperationKind.ofAnnotations_custom_iff (Operation.ofMethod_ok hmethod)
  have habstract : member.isAbstract = !signature.hasBody := by rw [Member.isAbstract, hkind]
  rw [habstract, Operation.isGenerated]
  cases hop : op.kind with
  | custom => simp [hcustom.mp hop]
  | query | write => simpa [hop] using hcustom

/-- An accepted DAO has the name and the place of its declaration and an operation for each
member. -/
theorem Dao.ofDeclaration_eq_ok {source : DeclarationSource} {scope : Scope} {d : Declaration}
    {dao : Dao} :
    Dao.ofDeclaration source scope d = .ok dao ↔
      Annotation.hasInvalid d.annotations = false ∧ dao.name = d.name ∧
        dao.location = d.location ∧ ∃ members, source.members d = .ok members ∧
          List.Forall₂ (fun member op => Operation.ofMember source scope member = .ok op) members
            dao.operations := by
  unfold Dao.ofDeclaration
  rw [← Annotation.firstInvalid?_eq_none]
  cases Annotation.firstInvalid? d.annotations with
  | some _ => simp
  | none =>
    simp only [Except.bind_eq_ok, Except.mapError_eq_ok, Except.mapM_eq_ok, Except.pure_eq_ok]
    constructor
    · rintro ⟨members, hmembers, operations, hoperations, rfl⟩
      exact ⟨trivial, rfl, rfl, members, hmembers, hoperations⟩
    · obtain ⟨name, operations, location⟩ := dao
      rintro ⟨_, rfl, rfl, members, hmembers, hoperations⟩
      exact ⟨members, hmembers, operations, hoperations, rfl⟩

theorem Dao.ofDeclaration_ok {source : DeclarationSource} {scope : Scope} {d : Declaration}
    {dao : Dao} (h : Dao.ofDeclaration source scope d = .ok dao) :
    dao.name = d.name ∧ ∃ members, source.members d = .ok members ∧
      List.Forall₂ (fun member op => Operation.ofMember source scope member = .ok op) members
        dao.operations := by
  obtain ⟨_, hname, _, hmembers⟩ := Dao.ofDeclaration_eq_ok.mp h
  exact ⟨hname, hmembers⟩

/-- A write of an accepted DAO is one of its parameters. -/
theorem Dao.ofParams_of_ofDeclaration {source : DeclarationSource} {scope : Scope} {d : Declaration}
    {dao : Dao} (h : Dao.ofDeclaration source scope d = .ok dao) {op : Operation}
    (hop : op ∈ dao.operations) {write : Write} (hkind : op.kind = .write write) :
    Write.ofParams scope write.op op.params op.returnType = .ok write := by
  obtain ⟨_, members, _, hall⟩ := Dao.ofDeclaration_ok h
  obtain ⟨member, _, hmember⟩ := hall.exists_left hop
  obtain ⟨_, _, hmethod⟩ := Operation.ofMember_ok hmember
  obtain ⟨_, hwrite⟩ := OperationKind.ofAnnotations_eq_ok.mp (Operation.ofMethod_ok hmethod)
  exact hwrite write hkind

/-- A write of an accepted DAO names a modeled entity, and the only parameter. -/
theorem Dao.write_of_ofDeclaration {source : DeclarationSource} {scope : Scope} {d : Declaration}
    {dao : Dao} (h : Dao.ofDeclaration source scope d = .ok dao) {op : Operation}
    (hop : op ∈ dao.operations) {write : Write} (hkind : op.kind = .write write) :
    (∃ entity ∈ scope.model.entities, entity.name = write.entity) ∧
      ∃ param, op.params = [param] ∧ param.name = write.param := by
  obtain ⟨param, hparams, _, hparam, _, _, hfound, _⟩ :=
    Write.ofParams_eq_ok.mp (Dao.ofParams_of_ofDeclaration h hop hkind)
  exact ⟨Scope.mem_of_entity hfound, param, hparams, hparam.symm⟩

/-! ## Databases -/

namespace Database

/-- Resolved names are distinct, and every one but those found before is what a written name stands
for. -/
theorem resolveAll_ok {d : Declaration} {kind : DeclarationKind} {resolve : String → Resolution}
    {found names : List QualifiedName} {written : List String}
    (h : resolveAll d kind resolve found written = .ok names) (hfound : found.Nodup) :
    names.Nodup ∧ names.length = found.length + written.length ∧
      ∀ name ∈ names, name ∈ found ∨ ∃ w ∈ written, resolve w = .found name := by
  induction written generalizing found with
  | nil =>
    cases h
    exact ⟨hfound, rfl, fun name hname => .inl hname⟩
  | cons w rest ih =>
    unfold resolveAll at h
    split at h
    · cases h
    · cases h
    · cases h
    · next name hname =>
      split at h
      · cases h
      · next hnew =>
        have hnot : name ∉ found := by simpa using hnew
        obtain ⟨hnodup, hlength, hmem⟩ := ih h (by simp [List.nodup_append, hfound]; grind)
        refine ⟨hnodup, by simp at hlength ⊢; omega, fun other hother => ?_⟩
        rcases hmem other hother with hin | ⟨w', hw', hres⟩
        · rcases List.mem_append.mp hin with hin | hin
          · exact .inl hin
          · cases List.mem_singleton.mp hin
            exact .inr ⟨w, List.mem_cons_self, hname⟩
        · exact .inr ⟨w', List.mem_cons_of_mem w hw', hres⟩

/-- An accepted database has the name of its declaration and lists modeled entities, at least one,
and modeled DAOs, each once. -/
theorem ofDeclaration_ok {scope : Scope} {d : Declaration} {database : Database}
    (h : ofDeclaration scope d = .ok database) :
    database.name = d.name ∧ database.entities ≠ [] ∧ database.entities.Nodup ∧
      database.daos.Nodup ∧
      (∀ name ∈ database.entities, ∃ entity ∈ scope.model.entities, entity.name = name) ∧
      ∀ name ∈ database.daos, ∃ dao ∈ scope.model.daos, dao.name = name := by
  unfold ofDeclaration at h
  split at h
  · cases h
  · split at h
    · cases h
    · next spec _ =>
      split at h
      · cases h
      · next hsome =>
        obtain ⟨entities, hentities, h⟩ := Except.bind_eq_ok.mp h
        obtain ⟨daos, hdaos, h⟩ := Except.bind_eq_ok.mp h
        cases Except.pure_eq_ok.mp h
        obtain ⟨hnodup, hlength, hmem⟩ := resolveAll_ok hentities List.nodup_nil
        obtain ⟨hnodup', _, hmem'⟩ := resolveAll_ok hdaos List.nodup_nil
        refine ⟨rfl, ?_, hnodup, hnodup', fun name hname => ?_, fun name hname => ?_⟩
        · rintro rfl
          have hempty : spec.entities = [] :=
            List.length_eq_zero_iff.mp (by simpa using hlength.symm)
          simp [hempty] at hsome
        · rcases hmem name hname with hin | ⟨_, _, hres⟩
          · cases hin
          · exact Scope.mem_of_entity hres
        · rcases hmem' name hname with hin | ⟨_, _, hres⟩
          · cases hin
          · exact Scope.mem_of_dao hres

end Database

end DaoGen
