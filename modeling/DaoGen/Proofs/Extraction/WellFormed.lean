import DaoGen.Proofs.Extraction.Accepted

/-!
# Well-formed entities

What a declaration has to say for an entity, apart from the order in which it is checked: fields
with valid attributes, one key, and an attachment and indices that can be made of the fields. An
entity is accepted just if its declaration is well formed, and it has what was declared.

## Main definitions

* `Field.IsDeclaredBy`, `Index.IsDeclaredBy`: what a field and an index have of their declarations.
* `Entity.WellFormed`: a declaration, with its members and the fields that they declare.

## Main results

* `Entity.fieldOf_eq_ok`: a member is accepted just if it declares a field.
* `Entity.ofDeclaration_accepts`: all checks together accept the well-formed declarations.
-/
namespace DaoGen

/-! ## Fields -/

/-- A field has what a member declares: its type, and the marks of its attributes. -/
structure Field.IsDeclaredBy (source : DeclarationSource) (member : Member) (field : Field) :
    Prop where
  kind : member.kind = .field field.ty
  valid : Annotation.hasInvalid (source.annotationsOf member) = false
  name : field.name = member.name
  nullable : field.nullable = field.ty.normalize.nullable
  primaryKey : field.primaryKey = true ↔
    ∃ autoGenerate, .primaryKey autoGenerate ∈ source.annotationsOf member
  /-- the last mark counts -/
  autoGenerate : field.autoGenerate =
    (Entity.keyMark? (source.annotationsOf member)).getD false

/-- There is a last mark of a primary key just if there is one. -/
theorem Entity.isSome_keyMark? {annotations : List Annotation} :
    (keyMark? annotations).isSome = true ↔
      ∃ autoGenerate, .primaryKey autoGenerate ∈ annotations := by
  rw [keyMark?, List.getLast?_isSome]
  constructor
  · intro h
    obtain ⟨autoGenerate, hmem⟩ := List.exists_mem_of_ne_nil _ h
    obtain ⟨a, ha, hmark⟩ := List.mem_filterMap.mp hmem
    cases a <;> simp only [reduceCtorEq, Option.some.injEq] at hmark
    exact ⟨_, ha⟩
  · rintro ⟨autoGenerate, hmem⟩
    exact List.ne_nil_of_mem (List.mem_filterMap.mpr ⟨_, hmem, rfl⟩)

/-- Only a key is generated. -/
theorem Field.IsDeclaredBy.primaryKey_of_autoGenerate {source : DeclarationSource}
    {member : Member} {field : Field} (h : field.IsDeclaredBy source member)
    (hauto : field.autoGenerate = true) : field.primaryKey = true := by
  rw [h.autoGenerate] at hauto
  rw [h.primaryKey, ← Entity.isSome_keyMark?]
  cases hmark : Entity.keyMark? (source.annotationsOf member) with
  | none => simp [hmark] at hauto
  | some _ => rfl

theorem Entity.fieldOf_eq_ok {source : DeclarationSource} {member : Member} {field : Field} :
    fieldOf source member = .ok field ↔ field.IsDeclaredBy source member := by
  unfold fieldOf
  split
  · next signature hkind =>
    refine ⟨nofun, fun h => ?_⟩
    cases hkind.symm.trans h.kind
  · next ty hkind =>
    dsimp only
    split
    · next hinvalid =>
      refine ⟨nofun, fun h => ?_⟩
      have hnone := Annotation.firstInvalid?_eq_none.mpr h.valid
      cases hinvalid.symm.trans hnone
    · next hvalid =>
      constructor
      · intro h
        cases h
        exact {
          kind := hkind
          valid := Annotation.firstInvalid?_eq_none.mp hvalid
          name := rfl
          nullable := rfl
          primaryKey := isSome_keyMark?
          autoGenerate := rfl }
      · intro h
        obtain ⟨name, ty', nullable, primaryKey, autoGenerate⟩ := field
        obtain ⟨hty, _, hname, hnullable, hprimaryKey, hautoGenerate⟩ := h
        dsimp only at hty hname hnullable hprimaryKey hautoGenerate
        cases hkind.symm.trans hty
        rw [← isSome_keyMark?, ← Bool.eq_iff_iff] at hprimaryKey
        rw [hname, hnullable, hprimaryKey, hautoGenerate]

/-! ## Attachments and indices -/

/-- There is an attachment just if one is declared. -/
theorem Attachment.isSome_ofRoles {declared : Bool} {fields : List Field}
    {roles : List (AttachmentRole × Nat)} {attachment : Option Attachment}
    (h : ofRoles declared fields roles = .ok attachment) : attachment.isSome = declared := by
  cases declared with
  | false =>
    cases h
    rfl
  | true =>
    obtain ⟨_, _, rfl⟩ := Except.map_eq_ok.mp h
    rfl

namespace Index

/-- An index has what a specification asks for, and a generated name if it asks for none. -/
structure IsDeclaredBy (table : String) (spec : IndexSpec) (index : Index) : Prop where
  name : index.name = if spec.name = "" then defaultName table spec.columns else spec.name
  columns : index.columns = spec.columns
  unique : index.unique = spec.unique

variable {table : String} {fields : List Field}

theorem isDeclaredBy_ofSpec {spec : IndexSpec} {index : Index}
    (h : ofSpec table fields spec = .ok index) : index.IsDeclaredBy table spec := by
  unfold ofSpec at h
  split at h
  · cases h
  · obtain ⟨_, _, h⟩ := Except.bind_eq_ok.mp h
    cases Except.pure_eq_ok.mp h
    exact ⟨rfl, rfl, rfl⟩

/-- Each specification is accepted by itself, in order, and the names of the indices are new and
distinct. -/
theorem ofSpecsAfter_ok {taken : List String} {specs : List IndexSpec} {indices : List Index}
    (h : ofSpecsAfter table fields taken specs = .ok indices) :
    List.Forall₂ (fun spec index => ofSpec table fields spec = .ok index) specs indices ∧
      (indices.map (·.name)).Nodup ∧ ∀ index ∈ indices, index.name ∉ taken := by
  induction specs generalizing taken indices with
  | nil =>
    cases h
    exact ⟨.nil, List.nodup_nil, nofun⟩
  | cons spec rest ih =>
    obtain ⟨index, hindex, h⟩ := Except.bind_eq_ok.mp h
    split at h
    · cases h
    · next hnew =>
      obtain ⟨indices, hrest, h⟩ := Except.bind_eq_ok.mp h
      cases Except.pure_eq_ok.mp h
      obtain ⟨hall, hnodup, htaken⟩ := ih hrest
      refine ⟨.cons hindex hall, ?_, ?_⟩
      · rw [List.map_cons, List.nodup_cons]
        refine ⟨fun hmem => ?_, hnodup⟩
        obtain ⟨other, hother, hname⟩ := List.mem_map.mp hmem
        exact htaken other hother (hname ▸ List.mem_cons_self)
      · rw [List.forall_mem_cons]
        exact ⟨by simpa using hnew, fun other hother hmem =>
          htaken other hother (List.mem_cons_of_mem _ hmem)⟩

/-- There is one index for each specification, in order. -/
theorem forall₂_ofSpecs {taken : List String} {specs : List IndexSpec} {indices : List Index}
    (h : ofSpecsAfter table fields taken specs = .ok indices) :
    List.Forall₂ (IsDeclaredBy table) specs indices :=
  (ofSpecsAfter_ok h).1.imp fun _ _ => isDeclaredBy_ofSpec

end Index

/-! ## Entities -/

namespace Entity

/-- A declaration with the given members is one of an entity with the given fields. -/
structure WellFormed (source : DeclarationSource) (d : Declaration) (members : List Member)
    (fields : List Field) : Prop where
  valid : Annotation.hasInvalid d.annotations = false
  resolved : source.members d = .ok members
  declared : List.Forall₂ (fun member field => field.IsDeclaredBy source member) members fields
  key : HasKey fields
  attachment : ∃ attachment, Attachment.ofRoles (declaresAttachment d) fields
    (rolePlaces source members) = .ok attachment
  indices : ∃ indices, Index.ofSpecs (tableOf d) fields (indexSpecs d) = .ok indices

/-- An entity has what its declaration says of it as a whole. -/
structure IsDeclaredBy (d : Declaration) (entity : Entity) : Prop where
  name : entity.name = d.name
  table : entity.table = tableOf d
  location : entity.location = d.location
  attachment : entity.attachment.isSome = true ↔ .withAttachment ∈ d.annotations
  indices : List.Forall₂ (Index.IsDeclaredBy entity.table) (indexSpecs d) entity.indices

/-- The accepted entities are those of the well-formed declarations. An accepted entity has the
fields of its members in order, no generated one but the key, and the attachment and the indices
that are declared. -/
theorem ofDeclaration_accepts (source : DeclarationSource) (d : Declaration) :
    ((∃ entity, (ofDeclaration source d).outcome = .ok entity) ↔
      ∃ members fields, WellFormed source d members fields) ∧
    ∀ entity, (ofDeclaration source d).outcome = .ok entity →
      (∃ members, WellFormed source d members entity.fields) ∧ entity.IsDeclaredBy d ∧
        ∀ field ∈ entity.fields, field.autoGenerate = true → field.primaryKey = true := by
  have haccepted : ∀ entity, (ofDeclaration source d).outcome = .ok entity →
      (∃ members, WellFormed source d members entity.fields) ∧ entity.IsDeclaredBy d := by
    intro entity h
    obtain ⟨hvalid, members, fields, hmembers, hfields, h⟩ := ofDeclaration_eq_ok.mp h
    obtain ⟨hname, htable, hlocation, rfl, hattachment, hindices⟩ := ofFields_eq_ok.mp h
    obtain ⟨hfields, hkey⟩ := fieldsOf_eq_ok.mp hfields
    refine ⟨⟨members, hvalid, hmembers, hfields.imp fun _ _ => fieldOf_eq_ok.mp, hkey,
      ⟨_, hattachment⟩, ⟨_, hindices⟩⟩, ?_⟩
    refine ⟨hname, htable, hlocation, ?_, htable ▸ Index.forall₂_ofSpecs hindices⟩
    rw [Attachment.isSome_ofRoles hattachment, declaresAttachment, List.contains_iff_mem]
  refine ⟨⟨fun ⟨entity, h⟩ => ?_, fun ⟨members, fields, h⟩ => ?_⟩, fun entity h => ?_⟩
  · obtain ⟨⟨members, hformed⟩, _⟩ := haccepted entity h
    exact ⟨members, entity.fields, hformed⟩
  · obtain ⟨attachment, hattachment⟩ := h.attachment
    obtain ⟨indices, hindices⟩ := h.indices
    let entity : Entity := { name := d.name, table := tableOf d, fields, indices, attachment,
                             location := d.location }
    have hentity : ofFields d fields (rolePlaces source members) = .ok entity :=
      ofFields_eq_ok.mpr ⟨rfl, rfl, rfl, rfl, hattachment, hindices⟩
    have hfields : fieldsOf source members = .ok fields :=
      fieldsOf_eq_ok.mpr ⟨h.declared.imp fun _ _ => fieldOf_eq_ok.mpr, h.key⟩
    exact ⟨entity, ofDeclaration_eq_ok.mpr
      ⟨h.valid, members, fields, h.resolved, hfields, hentity⟩⟩
  · obtain ⟨⟨members, hformed⟩, hdeclared⟩ := haccepted entity h
    refine ⟨⟨members, hformed⟩, hdeclared, fun field hfield => ?_⟩
    obtain ⟨_, _, hmember⟩ := hformed.declared.exists_left hfield
    exact hmember.primaryKey_of_autoGenerate

end Entity

end DaoGen
