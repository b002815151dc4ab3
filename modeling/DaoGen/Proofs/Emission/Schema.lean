import DaoGen.Declaration.Collection
import DaoGen.Proofs.Emission.References
import DaoGen.Proofs.Text.SnakeCase

/-!
# Failures of schemas

A schema has a module for each entity. There is none for an entity with a field that cannot be
stored, and none for an entity whose name in snake case is a reserved word, whatever its fields are.
The first of these entities keeps the schemas of all the others from being generated.

## Main definitions

* `isUnstored`: fields without a column type.
* `isUnnamable`, `blocksSchema`: entities whose module cannot be named, or cannot be generated.

## Main results

* `SchemaModule.ofEntity_eq_error`, `Schema.modulesOf_eq_error`: the first entity, and what is wrong
  with it.
* `Schema.ofContext_cases`: when a schema fails, and when it has a module for each entity.
-/
namespace DaoGen.Emission

open Code

/-! ## Entities -/

/-- Whether the normal form of the type of a field has no column type. -/
def isUnstored (dialect : Dialect) (field : Field) : Bool :=
  (field.canonicalType.columnType? dialect).isNone

/-- Whether no module can have the name that the module of an entity is given. -/
def isUnnamable (entity : Entity) : Bool := (parseName (Text.snakeCase entity.name.simple)).isNone

/-- Whether there is no module for an entity. -/
def blocksSchema (dialect : Dialect) (entity : Entity) : Bool :=
  isUnnamable entity || entity.fields.any (isUnstored dialect)

/-- The columns are defined up to the first field that cannot be stored. -/
theorem columnDefinitions_eq_error {dialect : Dialect} {fields : List Field} {field : Field} :
    Sql.columnDefinitions dialect fields = .error field ↔
      fields.find? (isUnstored dialect) = some field := by
  induction fields with
  | nil => simp [Sql.columnDefinitions]
  | cons f rest ih =>
    rw [Sql.columnDefinitions, List.find?_cons]
    cases htype : f.canonicalType.columnType? dialect with
    | none => simp [isUnstored, htype]
    | some type =>
      simp only [isUnstored, htype, Option.isNone_some]
      rw [← ih]
      cases Sql.columnDefinitions dialect rest <;> simp [Except.map]

theorem createTable_eq_error {dialect : Dialect} {entity : Entity} {field : Field} :
    Sql.createTable dialect entity = .error field ↔
      entity.fields.find? (isUnstored dialect) = some field := by
  rw [← columnDefinitions_eq_error, Sql.createTable]
  cases Sql.columnDefinitions dialect entity.fields <;> simp [Except.map]

namespace SchemaModule

theorem nameOf_eq_error {entity : Entity} {cause : EmitCause} :
    nameOf entity = .error cause ↔ isUnnamable entity = true ∧
      cause = .invalidIdentifier (Text.snakeCase entity.name.simple) := by
  unfold nameOf identifier isUnnamable
  cases parseName (Text.snakeCase entity.name.simple) <;> simp [eq_comm]

/-- The name of an entity counts before its fields. -/
theorem ofEntity_eq_error {dialect : Dialect} {entity : Entity} {cause : EmitCause} :
    ofEntity dialect entity = .error cause ↔
      (isUnnamable entity = true ∧
          cause = .invalidIdentifier (Text.snakeCase entity.name.simple)) ∨
        (isUnnamable entity = false ∧ ∃ field,
          entity.fields.find? (isUnstored dialect) = some field ∧
            cause = .unsupportedColumn entity.name field dialect) := by
  have hcolumn {name : String} : nameOf entity = .ok name → isUnnamable entity = false := by
    intro hname
    rw [Bool.eq_false_iff]
    intro hunnamable
    exact absurd (nameOf_eq_error.mpr ⟨hunnamable, rfl⟩) (by rw [hname]; exact nofun)
  rw [ofEntity, Except.bind_eq_error, nameOf_eq_error]
  refine or_congr Iff.rfl ?_
  constructor
  · rintro ⟨name, hname, h⟩
    split at h
    · next field hfield =>
      cases h
      exact ⟨hcolumn hname, field, createTable_eq_error.mp hfield, rfl⟩
    · cases h
  · rintro ⟨hnamable, field, hfield, rfl⟩
    cases hname : nameOf entity with
    | error cause => simp [(nameOf_eq_error.mp hname).1] at hnamable
    | ok name => exact ⟨name, rfl, by simp [createTable_eq_error.mpr hfield]⟩

theorem exists_ofEntity_eq_error {dialect : Dialect} {entity : Entity} :
    (∃ cause, ofEntity dialect entity = .error cause) ↔ blocksSchema dialect entity = true := by
  have hfields : entity.fields.any (isUnstored dialect) = true ↔
      ∃ field, entity.fields.find? (isUnstored dialect) = some field := by
    rw [← Option.isSome_iff_exists, List.find?_isSome, List.any_eq_true]
  simp only [ofEntity_eq_error]
  rw [blocksSchema, Bool.or_eq_true, hfields]
  constructor
  · rintro ⟨_, ⟨hunnamable, _⟩ | ⟨_, field, hfield, _⟩⟩
    · exact .inl hunnamable
    · exact .inr ⟨field, hfield⟩
  · intro h
    cases hunnamable : isUnnamable entity with
    | true => exact ⟨_, .inl ⟨rfl, rfl⟩⟩
    | false =>
      obtain ⟨field, hfield⟩ := h.resolve_left (by simp [hunnamable])
      exact ⟨_, .inr ⟨rfl, field, hfield, rfl⟩⟩

/-- What the module of an entity has. -/
structure IsModuleOf (dialect : Dialect) (entity : Entity) (m : SchemaModule) : Prop where
  name : parseName (Text.snakeCase entity.name.simple) = some m.name
  table : m.table = entity.table
  createTable : Sql.createTable dialect entity = .ok m.createTable
  indices : m.indices = entity.indices
  createIndices : m.createIndices = entity.indices.map (Sql.createIndex entity.table)

theorem isModuleOf_of_ofEntity {dialect : Dialect} {entity : Entity} {m : SchemaModule}
    (h : ofEntity dialect entity = .ok m) : IsModuleOf dialect entity m := by
  obtain ⟨name, hname, h⟩ := Except.bind_eq_ok.mp h
  split at h
  · cases h
  · next hcreate =>
    cases Except.pure_eq_ok.mp h
    exact ⟨identifier_eq_ok.mp hname, rfl, hcreate, rfl, rfl⟩

end SchemaModule

namespace Schema

/-- The first entity without a module is the one that is blamed. -/
theorem modulesOf_eq_error {dialect : Dialect} {entities : List Entity}
    {failure : QualifiedName × EmitCause} :
    modulesOf dialect entities = .error failure ↔
      ∃ entity, entities.find? (blocksSchema dialect) = some entity ∧ failure.1 = entity.name ∧
        SchemaModule.ofEntity dialect entity = .error failure.2 := by
  induction entities with
  | nil => simp [modulesOf]
  | cons entity rest ih =>
    have hblocks : (∃ cause, SchemaModule.ofEntity dialect entity = .error cause) ↔
        blocksSchema dialect entity = true := SchemaModule.exists_ofEntity_eq_error
    rw [modulesOf, List.find?_cons]
    cases hm : SchemaModule.ofEntity dialect entity with
    | error cause =>
      rw [hblocks.mp ⟨cause, hm⟩]
      simp [Except.mapError, bind, Except.bind, hm, Prod.ext_iff, eq_comm]
    | ok m =>
      have hfree : blocksSchema dialect entity = false := by
        rw [Bool.eq_false_iff, Ne, ← hblocks, hm]
        simp
      rw [hfree, ← ih]
      cases modulesOf dialect rest <;> simp [Except.mapError, bind, Except.bind, pure, Except.pure]

/-- Without such an entity there is a module for each entity, in order. -/
theorem exists_modulesOf {dialect : Dialect} {entities : List Entity}
    (h : ∀ entity ∈ entities, blocksSchema dialect entity = false) :
    ∃ modules, modulesOf dialect entities = .ok modules ∧
      List.Forall₂ (SchemaModule.IsModuleOf dialect) entities modules := by
  cases hmodules : modulesOf dialect entities with
  | error failure =>
    obtain ⟨entity, hentity, _⟩ := modulesOf_eq_error.mp hmodules
    have hblocks := List.find?_some hentity
    rw [h entity (List.mem_of_find?_eq_some hentity)] at hblocks
    cases hblocks
  | ok modules =>
    exact ⟨modules, rfl, (modulesOf_ok hmodules).imp fun _ _ => SchemaModule.isModuleOf_of_ofEntity⟩

/-- A schema fails at the first entity that blocks it: as its name in snake case cannot be used,
or else because of its first field without a column type. If there is no such entity, the schema has
a module for each entity. The names that cannot be used are reserved words. -/
theorem ofContext_cases (ctx : Context) :
    (∀ subject cause, ofContext ctx = .error (subject, cause) ↔
      ∃ entity, ctx.model.entities.find? (blocksSchema ctx.dialect) = some entity ∧
        subject = entity.name ∧
        ((isUnnamable entity = true ∧
            cause = .invalidIdentifier (Text.snakeCase entity.name.simple)) ∨
          (isUnnamable entity = false ∧ ∃ field,
            entity.fields.find? (isUnstored ctx.dialect) = some field ∧
              cause = .unsupportedColumn entity.name field ctx.dialect))) ∧
      ((∀ entity ∈ ctx.model.entities, blocksSchema ctx.dialect entity = false) →
        ∃ s, ofContext ctx = .ok s ∧
          List.Forall₂ (SchemaModule.IsModuleOf ctx.dialect) ctx.model.entities s.modules) ∧
      ∀ entity ∈ ctx.model.entities, IsWord entity.name.simple →
        (isUnnamable entity = true ↔ Text.snakeCase entity.name.simple ∈ unusableNames) := by
  refine ⟨fun subject cause => ?_, fun h => ?_, fun entity _ hword => ?_⟩
  · have hmodules : ofContext ctx = .error (subject, cause) ↔
        modulesOf ctx.dialect ctx.model.entities = .error (subject, cause) := by
      rw [ofContext, Except.bind_eq_error]
      simp [pure, Except.pure]
    simp only [hmodules, modulesOf_eq_error, SchemaModule.ofEntity_eq_error]
  · obtain ⟨modules, hmodules, hall⟩ := exists_modulesOf h
    exact ⟨_, by rw [ofContext, hmodules]; rfl, hall⟩
  · rw [isUnnamable, parseName_snakeCase hword]
    split <;> simp_all

/-- The code of an entity with a single field, whose name in snake case is a reserved word. -/
def reservedEntityCode : String :=
  "#[entity] pub struct Type \x7b #[primary_key] pub id: i64 \x7d"

/-- A schema fails although every field has a column type. -/
theorem ofContext_eq_error_of_reserved :
    ∃ c, Collection.add {} "db.rs" "db" reservedEntityCode = .ok c ∧
      let ctx : Context := ⟨(Extraction.ofSource c.source).model, .mobile, .sqlite, "replikit"⟩
      (∀ entity ∈ ctx.model.entities, ∀ field ∈ entity.fields,
          isUnstored ctx.dialect field = false) ∧
        ofContext ctx = .error (⟨"db::Type"⟩, .invalidIdentifier "type") := by
  have hany : (Collection.add {} "db.rs" "db" reservedEntityCode).toOption.any (fun c =>
      let ctx : Context := ⟨(Extraction.ofSource c.source).model, .mobile, .sqlite, "replikit"⟩
      (ctx.model.entities.all fun entity =>
          entity.fields.all fun field => !isUnstored ctx.dialect field) &&
        decide ((ofContext ctx).error? =
          some (⟨"db::Type"⟩, .invalidIdentifier "type"))) = true := by
    decide +kernel
  obtain ⟨c, hc, hboth⟩ := Except.exists_of_any hany
  rw [Bool.and_eq_true, decide_eq_true_eq, Except.error?_eq_some] at hboth
  refine ⟨c, hc, fun entity hentity field hfield => ?_, hboth.2⟩
  simpa using List.all_eq_true.mp (List.all_eq_true.mp hboth.1 entity hentity) field hfield

end Schema

end DaoGen.Emission
