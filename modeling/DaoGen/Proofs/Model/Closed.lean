import DaoGen.Proofs.Extraction.Run

/-!
# Closed models

A model is closed if its simple names are unique and everything that it names is in it. Adding the
model of an accepted declaration keeps it closed, so the models of a source are closed.
-/
namespace DaoGen

namespace Model

/-- A write of an operation is of an entity of the model, which its only parameter holds. -/
def HasWrite (model : Model) (op : Operation) (write : Write) : Prop :=
  (∃ entity ∈ model.entities, entity.name = write.entity) ∧
    ∃ param, op.params = [param] ∧ param.name = write.param

/-- A database lists entities of the model, at least one, and DAOs of the model, each once. -/
structure HasDatabase (model : Model) (database : Database) : Prop where
  entities_ne_nil : database.entities ≠ []
  entities_nodup : database.entities.Nodup
  daos_nodup : database.daos.Nodup
  entities_modeled : ∀ name ∈ database.entities, ∃ entity ∈ model.entities, entity.name = name
  daos_modeled : ∀ name ∈ database.daos, ∃ dao ∈ model.daos, dao.name = name

structure Closed (model : Model) : Prop where
  entity_names : (model.entities.map (·.name.simple)).Nodup
  dao_names : (model.daos.map (·.name.simple)).Nodup
  database_names : (model.databases.map (·.name.simple)).Nodup
  keys : ∀ entity ∈ model.entities, ∃ key, entity.primaryKey? = some key
  writes : ∀ dao ∈ model.daos, ∀ op ∈ dao.operations, ∀ write, op.kind = .write write →
    model.HasWrite op write
  databases : ∀ database ∈ model.databases, model.HasDatabase database

/-! ## Growing models -/

theorem HasWrite.mono {model model' : Model} {op : Operation} {write : Write}
    (hw : model.HasWrite op write) (h : model.entities ⊆ model'.entities) :
    model'.HasWrite op write := by
  obtain ⟨⟨entity, hmem, hname⟩, hparam⟩ := hw
  exact ⟨⟨entity, h hmem, hname⟩, hparam⟩

theorem HasDatabase.mono {model model' : Model} {database : Database}
    (h : model.HasDatabase database) (hentities : model.entities ⊆ model'.entities)
    (hdaos : model.daos ⊆ model'.daos) : model'.HasDatabase database where
  entities_ne_nil := h.entities_ne_nil
  entities_nodup := h.entities_nodup
  daos_nodup := h.daos_nodup
  entities_modeled name hname := by
    obtain ⟨entity, hmem, heq⟩ := h.entities_modeled name hname
    exact ⟨entity, hentities hmem, heq⟩
  daos_modeled name hname := by
    obtain ⟨dao, hmem, heq⟩ := h.daos_modeled name hname
    exact ⟨dao, hdaos hmem, heq⟩

/-- Simple names stay unique when a free one is added. -/
theorem nodup_simple_append {M : Type} (nameOf : M → QualifiedName) {ms : List M} {m : M}
    (h : (ms.map (nameOf · |>.simple)).Nodup)
    (hfree : Extraction.IsFree (ms.map nameOf) (nameOf m)) :
    ((ms ++ [m]).map (nameOf · |>.simple)).Nodup := by
  rw [List.map_append, List.nodup_append]
  refine ⟨h, by simp, ?_⟩
  intro a ha b hb
  obtain ⟨other, hother, rfl⟩ := List.mem_map.mp ha
  cases List.mem_singleton.mp hb
  exact hfree _ (List.mem_map_of_mem hother)

theorem Closed.empty : Closed {} where
  entity_names := List.nodup_nil
  dao_names := List.nodup_nil
  database_names := List.nodup_nil
  keys _ h := by cases h
  writes _ h := by cases h
  databases _ h := by cases h

theorem Closed.addEntity {model : Model} (h : model.Closed) {source : DeclarationSource}
    {d : Declaration} {entity : Entity} (hok : (Entity.ofDeclaration source d).outcome = .ok entity)
    (hfree : Extraction.IsFree (model.entities.map (·.name)) entity.name) :
    (Extraction.addEntity model entity).Closed where
  entity_names := nodup_simple_append Entity.name h.entity_names hfree
  dao_names := h.dao_names
  database_names := h.database_names
  keys other hother := by
    rcases List.mem_append.mp hother with hold | hnew
    · exact h.keys other hold
    · cases List.mem_singleton.mp hnew
      exact (Entity.ofDeclaration_ok hok).2
  writes dao hdao op hop write hkind :=
    (h.writes dao hdao op hop write hkind).mono (List.subset_append_left _ _)
  databases database hdatabase :=
    (h.databases database hdatabase).mono (List.subset_append_left _ _) (List.Subset.refl _)

theorem Closed.addDao {scope : Scope} (h : scope.model.Closed) {source : DeclarationSource}
    {d : Declaration} {dao : Dao} (hok : Dao.ofDeclaration source scope d = .ok dao)
    (hfree : Extraction.IsFree (scope.model.daos.map (·.name)) dao.name) :
    (Extraction.addDao scope.model dao).Closed where
  entity_names := h.entity_names
  dao_names := nodup_simple_append Dao.name h.dao_names hfree
  database_names := h.database_names
  keys := h.keys
  writes other hother op hop write hkind := by
    rcases List.mem_append.mp hother with hold | hnew
    · exact h.writes other hold op hop write hkind
    · cases List.mem_singleton.mp hnew
      exact Dao.write_of_ofDeclaration hok hop hkind
  databases database hdatabase :=
    (h.databases database hdatabase).mono (List.Subset.refl _) (List.subset_append_left _ _)

theorem Closed.addDatabase {scope : Scope} (h : scope.model.Closed) {d : Declaration}
    {database : Database} (hok : Database.ofDeclaration scope d = .ok database)
    (hfree : Extraction.IsFree (scope.model.databases.map (·.name)) database.name) :
    (Extraction.addDatabase scope.model database).Closed where
  entity_names := h.entity_names
  dao_names := h.dao_names
  database_names := nodup_simple_append Database.name h.database_names hfree
  keys := h.keys
  writes := h.writes
  databases other hother := by
    rcases List.mem_append.mp hother with hold | hnew
    · exact (h.databases other hold).mono (List.Subset.refl _) (List.Subset.refl _)
    · cases List.mem_singleton.mp hnew
      obtain ⟨_, hne, hnodup, hnodup', hentities, hdaos⟩ := Database.ofDeclaration_ok hok
      exact ⟨hne, hnodup, hnodup', hentities, hdaos⟩

/-! ## Closed models -/

theorem Closed.ofSource (source : DeclarationSource) : (Extraction.ofSource source).model.Closed :=
  Extraction.model_induction source Closed.empty (fun _ _ _ h hok hfree => h.addEntity hok hfree)
    (fun _ _ _ h hok hfree => h.addDao hok hfree) (fun _ _ _ h hok hfree => h.addDatabase hok hfree)

/-- An entity that is named can be looked up, and is one of the model. -/
theorem exists_entity? {model : Model} {name : QualifiedName}
    (h : ∃ entity ∈ model.entities, entity.name = name) :
    ∃ entity ∈ model.entities, entity.name = name ∧ model.entity? name = some entity := by
  obtain ⟨entity, hmem, hname⟩ := h
  have hsome : (model.entity? name).isSome :=
    List.find?_isSome.mpr ⟨entity, hmem, by simpa using hname⟩
  obtain ⟨found, hfound⟩ := Option.isSome_iff_exists.mp hsome
  exact ⟨found, List.mem_of_find?_eq_some hfound, by simpa using List.find?_some hfound, hfound⟩

/-- The entity that an operation writes can be looked up, and has a key. -/
theorem Closed.exists_key {model : Model} (h : model.Closed) {dao : Dao} (hdao : dao ∈ model.daos)
    {op : Operation} (hop : op ∈ dao.operations) {write : Write} (hkind : op.kind = .write write) :
    ∃ entity key, model.entity? write.entity = some entity ∧ entity.primaryKey? = some key := by
  obtain ⟨entity, hmem, _, hentity⟩ := exists_entity? (h.writes dao hdao op hop write hkind).1
  obtain ⟨key, hkey⟩ := h.keys entity hmem
  exact ⟨entity, key, hentity, hkey⟩

end Model

end DaoGen
