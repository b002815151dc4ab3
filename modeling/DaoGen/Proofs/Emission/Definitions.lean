import DaoGen.Proofs.Emission.Schema
import DaoGen.Proofs.Extraction.Index
import DaoGen.Proofs.Model.Closed
import Mathlib.Data.List.Pairwise

/-!
# What a schema creates

The statements of a schema create the table of each entity and its indices. A statement is skipped
if there is a table, or an index, of its name already. The names of the indices of one entity are
distinct, and so are the simple names of entities, which their tables have unless they are declared
to have others. Two entities can still give the same name: to tables and indices whose names are
declared, and to indices whose names are made, since the parts of a made name are joined by
underscores and may have underscores of their own.

## Main definitions

* `Sql.Object`, `Model.objects`: the tables and indices of a model.
* `Entity.Clash`: the ways in which two entities give a name twice.

## Main results

* `Index.defaultName_inj`: names made of parts without underscores are different.
* `Emission.Schema.creates`: the statements of a schema create the objects of the model, in order.
* `Extraction.objects_nodup_iff`: no statement is skipped just if no two entities clash.
-/
namespace DaoGen

/-! ## Objects -/

namespace Sql

/-- What a statement of a schema creates. -/
inductive Object
  | table (name : String)
  | index (name : String)
  deriving DecidableEq, Repr

/-- A statement creates an object unless there is one of its name. -/
inductive Creates : String → Object → Prop
  | table (name definitions : String) :
    Creates ("CREATE TABLE IF NOT EXISTS " ++ name ++ " (" ++ definitions) (.table name)
  | index (unique : Bool) (name target : String) :
    Creates ("CREATE " ++ (if unique then "UNIQUE " else "") ++ "INDEX IF NOT EXISTS " ++ name ++
      " ON " ++ target) (.index name)

theorem creates_createTable {dialect : Dialect} {entity : Entity} {statement : String}
    (h : createTable dialect entity = .ok statement) :
    Creates statement (.table entity.table) := by
  obtain ⟨columns, _, rfl⟩ := Except.map_eq_ok.mp h
  rw [String.append_assoc]
  exact .table _ _

theorem creates_createIndex (table : String) (index : Index) :
    Creates (createIndex table index) (.index index.name) := by
  let columns := ", ".intercalate (index.columns.map columnName)
  have hassoc (front : String) : front ++ table ++ " (" ++ columns ++ ")" =
      front ++ (table ++ " (" ++ columns ++ ")") := by
    simp only [String.append_assoc]
  have htext : createIndex table index = _ := hassoc _
  rw [htext]
  exact .index _ _ _

end Sql

/-- The table of an entity and its indices. -/
def Entity.objects (entity : Entity) : List Sql.Object :=
  .table entity.table :: entity.indices.map fun index => .index index.name

def Model.objects (model : Model) : List Sql.Object := model.entities.flatMap Entity.objects

namespace Emission

def SchemaModule.statements (m : SchemaModule) : List String := m.createTable :: m.createIndices

/-- The statements of all modules, in order. -/
def Schema.statements (s : Schema) : List String := s.modules.flatMap SchemaModule.statements

theorem SchemaModule.IsModuleOf.creates {dialect : Dialect} {entity : Entity} {m : SchemaModule}
    (h : IsModuleOf dialect entity m) : List.Forall₂ Sql.Creates m.statements entity.objects := by
  rw [statements, Entity.objects, h.createIndices]
  refine .cons (Sql.creates_createTable h.createTable) ?_
  rw [List.forall₂_map_left_iff, List.forall₂_map_right_iff, List.forall₂_same]
  exact fun index _ => Sql.creates_createIndex entity.table index

theorem Schema.creates {ctx : Context} {s : Schema} (h : ofContext ctx = .ok s) :
    List.Forall₂ Sql.Creates s.statements ctx.model.objects := by
  obtain ⟨modules, hmodules, h⟩ := Except.bind_eq_ok.mp h
  cases Except.pure_eq_ok.mp h
  refine List.rel_flatMap (R := fun m entity => SchemaModule.IsModuleOf ctx.dialect entity m)
    (modulesOf_ok hmodules |>.imp fun _ _ => SchemaModule.isModuleOf_of_ofEntity).flip ?_
  intro m entity hm
  exact hm.creates

end Emission

/-! ## Names of indices -/

namespace Index

theorem toList_defaultName {table : String} {columns : List String} (h : columns ≠ []) :
    (defaultName table columns).toList =
      "index_".toList ++ ['_'].intercalate ((table :: columns).map String.toList) := by
  have hjoin : defaultName table columns = "index_" ++ "_".intercalate (table :: columns) := by
    rw [defaultName, String.intercalate_cons_of_ne_nil h]
    simp only [String.append_assoc]
  rw [hjoin, String.toList_append, String.toList_intercalate]
  rfl

/-- Names that are made of parts without underscores have the same parts if they are the same. -/
theorem defaultName_inj {table table' : String} {columns columns' : List String}
    (hsome : columns ≠ []) (hsome' : columns' ≠ [])
    (hplain : ∀ part ∈ table :: columns, '_' ∉ part.toList)
    (hplain' : ∀ part ∈ table' :: columns', '_' ∉ part.toList)
    (h : defaultName table columns = defaultName table' columns') :
    table = table' ∧ columns = columns' := by
  have hlist := congrArg String.toList h
  rw [toList_defaultName hsome, toList_defaultName hsome', List.append_cancel_left_eq] at hlist
  have hparts := congrArg (List.splitOn '_') hlist
  rw [List.splitOn_intercalate '_' (by simpa using hplain) (by simp),
    List.splitOn_intercalate '_' (by simpa using hplain') (by simp)] at hparts
  have hinj := List.map_injective_iff.mpr (fun _ _ => String.toList_injective) hparts
  exact List.cons.inj hinj

/-- The name of an index of a table is made of the names of the table and of its columns. -/
def IsGenerated (table : String) (index : Index) : Prop :=
  index.name = defaultName table index.columns

end Index

/-! ## Clashes -/

/-- Two entities give the same name to their tables, or to an index each. For this, one has a table
with a name that is not its own, or an index with a name that is not made, or else there is an
underscore in a part of a made name. -/
inductive Entity.Clash (x y : Entity) : Prop
  | table (distinct : x ≠ y) (declared : x.table ≠ x.name.simple) (same : x.table = y.table)
  | declared (i j : Index) (distinct : x ≠ y) (left : i ∈ x.indices) (right : j ∈ y.indices)
    (declared : ¬ i.IsGenerated x.table) (same : i.name = j.name)
  | generated (i j : Index) (distinct : x.table ≠ y.table) (left : i ∈ x.indices)
    (right : j ∈ y.indices) (underscore : ∃ part ∈ (x.table :: i.columns) ++ y.table :: j.columns,
      '_' ∈ part.toList)
    (generated : i.IsGenerated x.table ∧ j.IsGenerated y.table) (same : i.name = j.name)

namespace Entity

/-- An accepted entity has indices of distinct names, each with columns. -/
theorem indices_of_ofDeclaration {source : DeclarationSource} {d : Declaration} {entity : Entity}
    (h : (ofDeclaration source d).outcome = .ok entity) :
    (entity.indices.map (·.name)).Nodup ∧ ∀ index ∈ entity.indices, index.columns ≠ [] := by
  obtain ⟨_, _, fields, _, _, h⟩ := ofDeclaration_eq_ok.mp h
  obtain ⟨_, _, _, _, _, hindices⟩ := ofFields_eq_ok.mp h
  obtain ⟨hall, hnodup, _⟩ := Index.ofSpecsAfter_ok hindices
  refine ⟨hnodup, fun index hindex => ?_⟩
  obtain ⟨_, _, hspec⟩ := hall.exists_left hindex
  exact (Index.columns_of_ofSpec hspec).1

theorem mem_objects_table {entity : Entity} {name : String} :
    .table name ∈ entity.objects ↔ name = entity.table := by
  simp [objects]

theorem mem_objects_index {entity : Entity} {name : String} :
    .index name ∈ entity.objects ↔ ∃ index ∈ entity.indices, index.name = name := by
  simp [objects]

theorem nodup_objects {entity : Entity} (h : (entity.indices.map (·.name)).Nodup) :
    entity.objects.Nodup := by
  have hindices : (entity.indices.map fun index => Sql.Object.index index.name).Nodup := by
    have hmap := h.map fun _ _ => Sql.Object.index.inj
    rwa [List.map_map] at hmap
  simpa [objects] using hindices

/-- What two entities share is a name of tables or of indices. -/
theorem not_disjoint_objects {x y : Entity} :
    ¬ x.objects.Disjoint y.objects ↔
      x.table = y.table ∨ ∃ i ∈ x.indices, ∃ j ∈ y.indices, i.name = j.name := by
  simp only [List.Disjoint, not_forall, exists_prop, not_false_eq_true, and_true]
  constructor
  · rintro ⟨object, hx, hy⟩
    cases object with
    | table name => exact .inl ((mem_objects_table.mp hx).symm.trans (mem_objects_table.mp hy))
    | index name =>
      obtain ⟨i, hi, rfl⟩ := mem_objects_index.mp hx
      obtain ⟨j, hj, hsame⟩ := mem_objects_index.mp hy
      exact .inr ⟨i, hi, j, hj, hsame.symm⟩
  · rintro (hsame | ⟨i, hi, j, hj, hsame⟩)
    · exact ⟨.table x.table, mem_objects_table.mpr rfl, mem_objects_table.mpr hsame⟩
    · exact ⟨.index i.name, mem_objects_index.mpr ⟨i, hi, rfl⟩,
        mem_objects_index.mpr ⟨j, hj, hsame.symm⟩⟩

theorem Clash.not_disjoint {x y : Entity} (h : x.Clash y) : ¬ x.objects.Disjoint y.objects := by
  rw [not_disjoint_objects]
  cases h with
  | table _ _ hsame => exact .inl hsame
  | declared i j _ hi hj _ hsame => exact .inr ⟨i, hi, j, hj, hsame⟩
  | generated i j _ hi hj _ _ hsame => exact .inr ⟨i, hi, j, hj, hsame⟩

theorem Clash.ne {x y : Entity} (h : x.Clash y) : x ≠ y := by
  cases h with
  | table hne => exact hne
  | declared _ _ hne => exact hne
  | generated _ _ hne => exact fun hxy => hne (by rw [hxy])

/-- Entities of different simple names share a name only if they clash. -/
theorem clash_of_not_disjoint {x y : Entity} (hne : x.name.simple ≠ y.name.simple)
    (hx : ∀ index ∈ x.indices, index.columns ≠ []) (hy : ∀ index ∈ y.indices, index.columns ≠ [])
    (h : ¬ x.objects.Disjoint y.objects) : x.Clash y ∨ y.Clash x := by
  have hdistinct : x ≠ y := fun hxy => hne (by rw [hxy])
  by_cases htable : x.table = y.table
  · -- the tables cannot both have the simple names
    by_cases hown : x.table = x.name.simple
    · exact .inr (.table hdistinct.symm (by grind) htable.symm)
    · exact .inl (.table hdistinct hown htable)
  · obtain ⟨i, hi, j, hj, hsame⟩ := (not_disjoint_objects.mp h).resolve_left htable
    by_cases hmade : i.IsGenerated x.table
    · by_cases hmade' : j.IsGenerated y.table
      · refine .inl (.generated i j htable hi hj ?_ ⟨hmade, hmade'⟩ hsame)
        by_contra hplain
        push Not at hplain
        have hname : Index.defaultName x.table i.columns = Index.defaultName y.table j.columns := by
          rw [← hmade, ← hmade', hsame]
        have hsplit := List.forall_mem_append.mp hplain
        exact htable (Index.defaultName_inj (hx i hi) (hy j hj) hsplit.1 hsplit.2 hname).1
      · exact .inr (.declared j i hdistinct.symm hj hi hmade' hsame.symm)
    · exact .inl (.declared i j hdistinct hi hj hmade hsame)

end Entity

namespace Extraction

/-- The statements of a schema create the tables and indices of the model, in order. All of these
have names of their own just if no two entities clash. -/
theorem objects_nodup_iff (source : DeclarationSource) :
    (∀ (ctx : Emission.Context) s, ctx.model = (ofSource source).model →
      Emission.Schema.ofContext ctx = .ok s →
        List.Forall₂ Sql.Creates s.statements (ofSource source).model.objects) ∧
    ((ofSource source).model.objects.Nodup ↔
      ∀ x ∈ (ofSource source).model.entities, ∀ y ∈ (ofSource source).model.entities,
        ¬ x.Clash y) := by
  refine ⟨fun ctx s hctx hs => hctx ▸ Emission.Schema.creates hs, ?_⟩
  have hnames : (ofSource source).model.entities.Pairwise
      fun x y => x.name.simple ≠ y.name.simple :=
    List.pairwise_map.mp (Model.Closed.ofSource source).entity_names
  have hindices : ∀ entity ∈ (ofSource source).model.entities,
      (entity.indices.map (·.name)).Nodup ∧ ∀ index ∈ entity.indices, index.columns ≠ [] := by
    intro entity hentity
    obtain ⟨d, hd⟩ := exists_declaration source entity hentity
    exact Entity.indices_of_ofDeclaration hd
  rw [Model.objects, List.nodup_flatMap]
  constructor
  · rintro ⟨_, hdisjoint⟩ x hx y hy hclash
    have hsymm : Std.Symm (Function.onFun List.Disjoint Entity.objects) :=
      ⟨fun _ _ hxy _ hy hx => hxy hx hy⟩
    exact hclash.not_disjoint (hdisjoint.forall hx hy hclash.ne)
  · intro hfree
    refine ⟨fun x hx => Entity.nodup_objects (hindices x hx).1, ?_⟩
    refine hnames.imp_of_mem fun {x y} hx hy hne => ?_
    by_contra hshared
    rcases Entity.clash_of_not_disjoint hne (hindices x hx).2 (hindices y hy).2 hshared with h | h
    · exact hfree x hx y hy h
    · exact hfree y hy x hx h

/-- A column of one table whose name starts as the name of the other table ends. -/
def underscoreCode : String :=
  "#[entity(index(columns(group_name)))] struct Tag \x7b " ++
    "#[primary_key] group_name: String \x7d\n" ++
    "#[entity(index(columns(name), unique))] struct Tag_group \x7b #[primary_key] name: String \x7d"

/-- Indices of two tables have the same name, so the unique one is never created. -/
theorem objects_repeated :
    ∃ c, Collection.add {} "db.rs" "db" underscoreCode = .ok c ∧
      (ofSource c.source).isValid = true ∧
      (ofSource c.source).model.objects =
        [.table "Tag", .index "index_Tag_group_name", .table "Tag_group",
          .index "index_Tag_group_name"] ∧
      ¬ (ofSource c.source).model.objects.Nodup := by
  have hany : (Collection.add {} "db.rs" "db" underscoreCode).toOption.any (fun c =>
      let e := ofSource c.source
      e.isValid && decide (e.model.objects =
        [.table "Tag", .index "index_Tag_group_name", .table "Tag_group",
          .index "index_Tag_group_name"])) = true := by
    decide +kernel
  obtain ⟨c, hc, hboth⟩ := Except.exists_of_any hany
  rw [Bool.and_eq_true, decide_eq_true_eq] at hboth
  refine ⟨c, hc, hboth.1, hboth.2, ?_⟩
  rw [hboth.2]
  decide

end Extraction

end DaoGen
