import DaoGen.Proofs.Code.Scope
import DaoGen.Proofs.Emission.Table
import Mathlib.Data.List.Nodup

/-!
# Indices and the columns they list

An index lists columns by the names of fields or of columns, which differ in the mark of raw
identifiers. The statement that creates it lists them without this mark, while the name that is made
for an index, and the check for repeated columns, take them as they are written.

## Main results

* `checkColumns_eq_ok`, `ofSpec_eq_ok`: which specifications are accepted.
* `nodup_map_columnName_iff`: columns are listed once, unless one is written in two ways.
* `defaultName_columnName_iff`: a generated name is made of columns just if none is written raw.
* `ofSpecs_listsColumns`: what the statement of each accepted index lists.
-/
namespace DaoGen

open Code

/-! ## Names of columns -/

theorem eq_raw_columnName {name : String} (h : isRaw name = true) :
    name = "r#" ++ columnName name := by
  obtain ⟨plain, hplain⟩ := Option.isSome_iff_exists.mp h
  rw [columnName, hplain, Option.getD_some]
  exact Text.stripPrefix?_eq_some_iff.mp hplain

theorem isRaw_append (name : String) : isRaw ("r#" ++ name) = true := by
  rw [isRaw, Text.stripPrefix?_eq_some_iff.mpr rfl, Option.isSome_some]

theorem columnName_append (name : String) : columnName ("r#" ++ name) = name := by
  rw [columnName, Text.stripPrefix?_eq_some_iff.mpr rfl, Option.getD_some]

/-- Names of distinct spelling are those of distinct columns, unless one is spelled in two ways. -/
theorem nodup_map_columnName_iff {names : List String} (h : names.Nodup) :
    (names.map columnName).Nodup ↔ ∀ name ∈ names, isRaw name = false → "r#" ++ name ∉ names := by
  rw [List.nodup_map_iff_inj_on h]
  constructor
  · intro hinj name hname hplain hraw
    have heq : "r#" ++ name = name := by
      apply hinj _ hraw _ hname
      rw [columnName_append, columnName_of_not_isRaw hplain]
    have hmarked := isRaw_append name
    rw [heq, hplain] at hmarked
    cases hmarked
  · intro hplain name hname other hother hsame
    cases hraw : isRaw name <;> cases hraw' : isRaw other
    case false.false =>
      rwa [columnName_of_not_isRaw hraw, columnName_of_not_isRaw hraw'] at hsame
    case true.true => rw [eq_raw_columnName hraw, eq_raw_columnName hraw', hsame]
    case false.true =>
      rw [columnName_of_not_isRaw hraw] at hsame
      rw [eq_raw_columnName hraw', ← hsame] at hother
      exact absurd hother (hplain name hname hraw)
    case true.false =>
      rw [columnName_of_not_isRaw hraw'] at hsame
      rw [eq_raw_columnName hraw, hsame] at hname
      exact absurd hname (hplain other hother hraw')

theorem length_columnName (name : String) :
    (columnName name).length + (if isRaw name then 2 else 0) = name.length := by
  cases hraw : isRaw name with
  | false => rw [columnName_of_not_isRaw hraw, if_neg nofun, Nat.add_zero]
  | true =>
    have hlength := congrArg String.length (eq_raw_columnName hraw)
    rw [String.length_append] at hlength
    have htwo : "r#".length = 2 := by decide
    simp
    omega

/-- A text of joined names is as long as that of the columns, and two longer for each raw name. -/
theorem length_intercalate_columnName (separator : String) (names : List String) :
    (separator.intercalate (names.map columnName)).length + 2 * names.countP isRaw =
      (separator.intercalate names).length := by
  induction names with
  | nil => rfl
  | cons name rest ih =>
    have hname := length_columnName name
    rw [List.countP_cons]
    cases rest with
    | nil =>
      simp only [List.map_cons, List.map_nil, String.intercalate_singleton, List.countP_nil]
      split at hname <;> simp_all
    | cons next rest =>
      simp only [List.map_cons, String.intercalate_cons_cons, String.length_append] at ih ⊢
      split at hname <;> simp_all <;> omega

theorem intercalate_columnName_iff {separator : String} {names : List String} :
    separator.intercalate names = separator.intercalate (names.map columnName) ↔
      ∀ name ∈ names, isRaw name = false := by
  constructor
  · intro h
    have hlength := length_intercalate_columnName separator names
    rw [← h] at hlength
    have hnone : names.countP isRaw = 0 := by omega
    simpa [List.countP_eq_zero] using hnone
  · intro h
    rw [List.map_congr_left fun name hname => columnName_of_not_isRaw (h name hname), List.map_id']

/-! ## Accepted indices -/

namespace Index

variable {table : String} {fields : List Field}

/-- A name means a field of the entity. -/
def IsKnown (fields : List Field) (name : String) : Prop :=
  ∃ field ∈ fields, field.name = name ∨ field.column = name

theorem any_isCalled_iff {name : String} :
    fields.any (·.isCalled name) = true ↔ IsKnown fields name := by
  simp [IsKnown, Field.isCalled]

theorem checkColumns_eq_ok {seen columns : List String} :
    checkColumns fields seen columns = .ok () ↔
      (∀ c ∈ columns, IsKnown fields c) ∧ columns.Nodup ∧ ∀ c ∈ columns, c ∉ seen := by
  induction columns generalizing seen with
  | nil => simp [checkColumns]
  | cons column rest ih =>
    unfold checkColumns
    cases hknown : fields.any (·.isCalled column) with
    | false =>
      have hnot : ¬ IsKnown fields column := by rw [← any_isCalled_iff, hknown]; exact nofun
      simp [hnot]
    | true =>
      rw [any_isCalled_iff] at hknown
      cases hseen : seen.contains column with
      | true => simp [List.contains_iff_mem.mp hseen]
      | false =>
        have hnew : column ∉ seen := by simpa using hseen
        simp only [Bool.not_true, Bool.false_eq_true, if_false, ih, List.nodup_cons,
          List.mem_cons, not_or]
        grind

/-- An accepted index lists columns, each of a field of the entity and each once as written. -/
theorem columns_of_ofSpec {spec : IndexSpec} {index : Index}
    (h : ofSpec table fields spec = .ok index) :
    index.columns ≠ [] ∧ (∀ c ∈ index.columns, IsKnown fields c) ∧ index.columns.Nodup := by
  rw [(isDeclaredBy_ofSpec h).columns]
  unfold ofSpec at h
  split at h
  · cases h
  · next hsome =>
    obtain ⟨_, hcheck, _⟩ := Except.bind_eq_ok.mp h
    obtain ⟨hknown, hnodup, _⟩ := checkColumns_eq_ok.mp hcheck
    exact ⟨by simpa using hsome, hknown, hnodup⟩

/-! ## Statements -/

/-- The columns that the statement of an index lists. -/
def sqlColumns (index : Index) : List String := index.columns.map columnName

/-- What the statement of an index of an entity says, for a specification of it. -/
structure ListsColumns (entity : Entity) (spec : IndexSpec) (index : Index) : Prop where
  declared : index.IsDeclaredBy entity.table spec
  text : Sql.createIndex entity.table index =
    "CREATE " ++ (if index.unique then "UNIQUE " else "") ++ "INDEX IF NOT EXISTS " ++ index.name ++
      " ON " ++ entity.table ++ " (" ++ ", ".intercalate index.sqlColumns ++ ")"
  nonempty : index.sqlColumns ≠ []
  /-- the columns are those of fields; a name has at most one mark -/
  known : (∀ field ∈ entity.fields, isRaw field.column = false) →
    ∀ column ∈ index.sqlColumns, column ∈ entity.fields.map Field.column ∧ isRaw column = false
  /-- no column is listed both raw and plain -/
  distinct : index.sqlColumns.Nodup ↔
    ∀ name ∈ index.columns, isRaw name = false → "r#" ++ name ∉ index.columns
  /-- a generated name is made of the columns just if none of them is written raw -/
  generated : spec.name = "" →
    (index.name = "index_" ++ entity.table ++ "_" ++ "_".intercalate index.sqlColumns ↔
      ∀ name ∈ index.columns, isRaw name = false)

/-- A known name is listed as the column of a field. -/
theorem IsKnown.column_mem {fields : List Field}
    (hfields : ∀ field ∈ fields, isRaw field.column = false) {name : String}
    (h : IsKnown fields name) :
    columnName name ∈ fields.map Field.column ∧ isRaw (columnName name) = false := by
  obtain ⟨field, hfield, rfl | rfl⟩ := h
  · exact ⟨List.mem_map_of_mem hfield, hfields field hfield⟩
  · rw [columnName_of_not_isRaw (hfields field hfield)]
    exact ⟨List.mem_map_of_mem hfield, hfields field hfield⟩

theorem listsColumns_of_ofSpec {entity : Entity} {spec : IndexSpec} {index : Index}
    (h : ofSpec entity.table entity.fields spec = .ok index) : ListsColumns entity spec index := by
  have hdeclared := isDeclaredBy_ofSpec h
  obtain ⟨hsome, hknown, hnodup⟩ := columns_of_ofSpec h
  refine {
    declared := hdeclared
    text := rfl
    nonempty := by simpa [sqlColumns] using hsome
    known := fun hfields column hcolumn => ?_
    distinct := nodup_map_columnName_iff hnodup
    generated := fun hname => ?_ }
  · obtain ⟨name, hmem, rfl⟩ := List.mem_map.mp hcolumn
    exact (hknown name hmem).column_mem hfields
  · rw [hdeclared.name, if_pos hname, defaultName, ← hdeclared.columns, String.append_right_inj,
      sqlColumns, intercalate_columnName_iff]

/-- There is one index for each specification, in order. Its statement lists columns of the table of
the entity, in the declared order. Each is listed once unless it is written both raw and plain, and
a generated name is made of the listed columns unless one is written raw. -/
theorem ofSpecs_listsColumns {entity : Entity} {specs : List IndexSpec} {indices : List Index}
    (h : ofSpecs entity.table entity.fields specs = .ok indices) :
    List.Forall₂ (ListsColumns entity) specs indices ∧
      ∀ dialect statement, Sql.createTable dialect entity = .ok statement →
        ∃ definitions, statement = Sql.tableText entity.table definitions ∧
          definitions.map Prod.fst = entity.fields.map Field.column := by
  refine ⟨(ofSpecsAfter_ok h).1.imp fun _ _ => listsColumns_of_ofSpec, ?_⟩
  intro dialect statement hstatement
  obtain ⟨definitions, htext, hall⟩ := Sql.exists_definitions hstatement
  exact ⟨definitions, htext, Sql.map_fst_definitions hall⟩

/-- A unique index of a raw column and a plain one. -/
theorem ofSpecs_listsColumns_tag :
    let fields : List Field := [{ name := "r#type", ty := .named "i64" },
      { name := "name", ty := .named "String" }]
    let entity : Entity := { name := ⟨"db::Tag"⟩, table := "tags", fields }
    let spec : IndexSpec := { columns := ["type", "name"], unique := true }
    ∃ index, ofSpecs entity.table entity.fields [spec] = .ok [index] ∧
      index.name = "index_tags_type_name" ∧ index.sqlColumns.Nodup ∧
      ∀ column ∈ index.sqlColumns, column ∈ ["type", "name"] := by
  intro fields entity spec
  let index : Index := ⟨"index_tags_type_name", ["type", "name"], true⟩
  have hspecs : ofSpecs entity.table entity.fields [spec] = .ok [index] := by decide +kernel
  obtain ⟨hall, _⟩ := ofSpecs_listsColumns hspecs
  obtain ⟨hlists, _⟩ := List.forall₂_cons.mp hall
  refine ⟨index, hspecs, rfl, hlists.distinct.mpr (by decide +kernel), fun column hcolumn => ?_⟩
  have hcolumns : entity.fields.map Field.column = ["type", "name"] := by decide +kernel
  have hplain : ∀ field ∈ entity.fields, isRaw field.column = false := by decide +kernel
  exact hcolumns ▸ (hlists.known hplain column hcolumn).1

/-- An entity with two indices: one of a raw column, and one of a column that is listed twice. -/
def rawIndexCode : String :=
  "#[entity(index(columns(r#type)), index(columns(r#kind, kind)))] pub struct Tag \x7b " ++
    "#[primary_key] pub id: i64, pub r#type: i64, pub r#kind: i64 \x7d"

/-- The mark of a raw name gets into the name of an index, and a column is listed twice. -/
theorem createIndex_raw :
    ∃ c, Collection.add {} "db.rs" "db" rawIndexCode = .ok c ∧
      (Extraction.ofSource c.source).isValid = true ∧
      (Extraction.ofSource c.source).model.entities.map
          (fun entity => entity.indices.map (Sql.createIndex entity.table)) =
        [["CREATE INDEX IF NOT EXISTS index_Tag_r#type ON Tag (type)",
          "CREATE INDEX IF NOT EXISTS index_Tag_r#kind_kind ON Tag (kind, kind)"]] := by
  have hany : (Collection.add {} "db.rs" "db" rawIndexCode).toOption.any (fun c =>
      let e := Extraction.ofSource c.source
      e.isValid && decide (e.model.entities.map
          (fun entity => entity.indices.map (Sql.createIndex entity.table)) =
        [["CREATE INDEX IF NOT EXISTS index_Tag_r#type ON Tag (type)",
          "CREATE INDEX IF NOT EXISTS index_Tag_r#kind_kind ON Tag (kind, kind)"]])) = true := by
    decide +kernel
  obtain ⟨c, hc, hboth⟩ := Except.exists_of_any hany
  rw [Bool.and_eq_true, decide_eq_true_eq] at hboth
  exact ⟨c, hc, hboth⟩

end Index

end DaoGen
