import DaoGen.Proofs.Emission.Schema
import DaoGen.Proofs.Extraction.WellFormed

/-!
# Tables in both dialects

Each dialect has a table of column types of its own. Both list the same types, so an entity can be
stored in both dialects or in neither, and the statements that create its table define the same
columns with the same key.

## Main definitions

* `storedNames`, `columnTypes`: what the dialects have column types for, and these types.
* `Sql.tableText`: the statement with the given definitions of columns.
* `Sql.IsClauseOf`: what a definition says of a field after the name of its column.

## Main results

* `isUnstored_eq`: a field can be stored in both dialects or in neither.
* `Sql.exists_definitions`: a statement has one definition for each field, in order.
* `Sql.createTable_agrees`: the statements of both dialects for an accepted entity.
-/
namespace DaoGen

/-! ## Column types -/

/-- The types without arguments that can be stored. -/
def storedNames : List String :=
  ["bool", "i8", "i16", "i32", "i64", "isize", "u8", "u16", "u32", "u64", "usize", "f32", "f64",
    "String", "str", "char"]

/-- The types of columns, in any dialect. -/
def columnTypes : List String :=
  ["INTEGER", "REAL", "TEXT", "BLOB", "BOOLEAN", "SMALLINT", "BIGINT", "DOUBLE PRECISION", "BYTEA"]

theorem Dialect.isSome_plainType? {dialect : Dialect} {name : String} :
    (dialect.plainType? name).isSome = true ↔ name ∈ storedNames := by
  constructor
  · intro h
    unfold plainType? at h
    split at h <;> simp_all [storedNames]
  · have hstored : ∀ name ∈ storedNames, (dialect.plainType? name).isSome = true := by
      cases dialect <;> decide
    exact hstored name

theorem Dialect.mem_of_plainType? {dialect : Dialect} {name type : String}
    (h : dialect.plainType? name = some type) : type ∈ columnTypes := by
  unfold plainType? at h
  split at h <;> simp_all [columnTypes]

/-- What has a column type in one dialect has one in the other. -/
theorem TypeRef.isSome_columnType? (t : TypeRef) (dialect dialect' : Dialect) :
    (t.columnType? dialect).isSome = (t.columnType? dialect').isSome := by
  have hplain : (dialect.plainType? t.simpleName).isSome =
      (dialect'.plainType? t.simpleName).isSome := by
    rw [Bool.eq_iff_iff, Dialect.isSome_plainType?, Dialect.isSome_plainType?]
  unfold columnType?
  split
  · rfl
  · split
    · rfl
    · split
      · exact hplain
      · rfl

theorem TypeRef.mem_of_columnType? {t : TypeRef} {dialect : Dialect} {type : String}
    (h : t.columnType? dialect = some type) : type ∈ columnTypes := by
  unfold columnType? at h
  split at h
  · cases h
  · split at h
    · cases h
      cases dialect <;> decide
    · split at h
      · exact Dialect.mem_of_plainType? h
      · cases h

theorem Emission.isUnstored_eq (dialect dialect' : Dialect) :
    isUnstored dialect = isUnstored dialect' := by
  funext field
  have hsome := field.canonicalType.isSome_columnType? dialect dialect'
  rw [isUnstored, isUnstored, ← Option.not_isSome, ← Option.not_isSome, hsome]

namespace Sql

/-! ## Definitions of columns -/

/-- A phrase stands in a text. -/
def Says (text phrase : String) : Prop := ∃ before after, text = before ++ phrase ++ after

theorem Says.subset {text phrase : String} (h : Says text phrase) :
    phrase.toList ⊆ text.toList := by
  obtain ⟨before, after, rfl⟩ := h
  intro c hc
  simp [hc]

/-- What the definition of a column says after its name: which field is the key, and which other
fields always have a value. -/
structure IsClauseOf (field : Field) (clause : String) : Prop where
  key : Says clause "PRIMARY KEY" ↔ field.primaryKey = true
  required : field.primaryKey = false → (Says clause "NOT NULL" ↔ field.nullable = false)

/-- No type of a column speaks of keys or of missing values. -/
theorem columnTypes_silent {type : String} (h : type ∈ columnTypes) :
    ¬ Says type "NOT NULL" ∧ ¬ Says type "PRIMARY KEY" ∧
      ¬ Says (type ++ " NOT NULL") "PRIMARY KEY" := by
  -- each phrase has a letter that the text has not
  have hmissing : ∀ type ∈ columnTypes,
      ¬ "NOT NULL".toList ⊆ type.toList ∧ 'K' ∉ type.toList := by decide
  obtain ⟨hnot, hkey⟩ := hmissing type h
  refine ⟨fun hphrase => hnot hphrase.subset, fun hphrase => hkey (hphrase.subset (by decide)), ?_⟩
  intro hphrase
  have hmem : 'K' ∈ (type ++ " NOT NULL").toList := hphrase.subset (by decide)
  simp [hkey] at hmem

/-- A generated key is a key in the words of either dialect. -/
theorem exists_clause_of_generated (dialect : Dialect) {field : Field} (type : String)
    (hkey : field.primaryKey = true) (hauto : field.autoGenerate = true) :
    ∃ clause, columnDefinition dialect field type = field.column ++ " " ++ clause ∧
      Says clause "PRIMARY KEY" := by
  cases dialect with
  | sqlite =>
    refine ⟨"INTEGER PRIMARY KEY AUTOINCREMENT", ?_, "INTEGER ", " AUTOINCREMENT", by decide⟩
    simp [columnDefinition, hkey, hauto, String.append_assoc]
  | postgres =>
    let serial := if type = "BIGINT" then "BIGSERIAL" else "SERIAL"
    refine ⟨serial ++ " PRIMARY KEY", ?_, serial ++ " ", "", by simp [String.append_assoc]⟩
    simp only [columnDefinition, hkey, hauto, Bool.and_self, if_true, serial]
    split <;> simp [String.append_assoc]

/-- A definition is the name of the column and a clause about the field. -/
theorem exists_clause (dialect : Dialect) (field : Field) {type : String}
    (htype : type ∈ columnTypes) :
    ∃ clause, columnDefinition dialect field type = field.column ++ " " ++ clause ∧
      IsClauseOf field clause := by
  obtain ⟨hnull, hkey, hboth⟩ := columnTypes_silent htype
  cases hprimary : field.primaryKey with
  | false =>
    cases hnullable : field.nullable with
    | true =>
      refine ⟨type, by simp [columnDefinition, hprimary, hnullable], ?_⟩
      exact ⟨by simp [hkey, hprimary], by simp [hnull, hnullable]⟩
    | false =>
      have hphrase : Says (type ++ " NOT NULL") "NOT NULL" :=
        ⟨type ++ " ", "", by simp [String.append_assoc]⟩
      refine ⟨type ++ " NOT NULL", ?_, ?_⟩
      · simp [columnDefinition, hprimary, hnullable, String.append_assoc]
      · exact ⟨by simp [hboth, hprimary], by simp [hphrase, hnullable]⟩
  | true =>
    have hclause {clause : String} (h : Says clause "PRIMARY KEY") : IsClauseOf field clause :=
      ⟨by simp [h, hprimary], by simp [hprimary]⟩
    cases hauto : field.autoGenerate with
    | true =>
      obtain ⟨clause, htext, hphrase⟩ := exists_clause_of_generated dialect type hprimary hauto
      exact ⟨clause, htext, hclause hphrase⟩
    | false =>
      let ending := if field.nullable then "" else " NOT NULL"
      have hphrase : Says (type ++ " PRIMARY KEY" ++ ending) "PRIMARY KEY" :=
        ⟨type ++ " ", ending, by simp [String.append_assoc]⟩
      refine ⟨_, ?_, hclause hphrase⟩
      simp [columnDefinition, hprimary, hauto, ending, String.append_assoc]

/-! ## Statements -/

/-- The statement that creates a table with the given columns, each with what is said of it. -/
def tableText (table : String) (definitions : List (String × String)) : String :=
  "CREATE TABLE IF NOT EXISTS " ++ table ++ " (" ++
    ", ".intercalate (definitions.map fun (column, clause) => column ++ " " ++ clause) ++ ")"

/-- A column with what is said of it, for a field. -/
structure IsDefinitionOf (field : Field) (definition : String × String) : Prop where
  column : definition.1 = field.column
  clause : IsClauseOf field definition.2

theorem definitions_of_columnDefinitions {dialect : Dialect} {fields : List Field}
    {texts : List String} (h : columnDefinitions dialect fields = .ok texts) :
    ∃ definitions : List (String × String),
      texts = definitions.map (fun (column, clause) => column ++ " " ++ clause) ∧
        List.Forall₂ IsDefinitionOf fields definitions := by
  induction fields generalizing texts with
  | nil =>
    cases h
    exact ⟨[], rfl, .nil⟩
  | cons field rest ih =>
    rw [columnDefinitions] at h
    split at h
    · cases h
    · next type htype =>
      obtain ⟨texts, hrest, rfl⟩ := Except.map_eq_ok.mp h
      obtain ⟨definitions, rfl, hall⟩ := ih hrest
      obtain ⟨clause, htext, hclause⟩ :=
        exists_clause dialect field (TypeRef.mem_of_columnType? htype)
      exact ⟨(field.column, clause) :: definitions, by rw [htext, List.map_cons],
        .cons ⟨rfl, hclause⟩ hall⟩

/-- A statement has one definition for each field, in order. -/
theorem exists_definitions {dialect : Dialect} {entity : Entity} {statement : String}
    (h : createTable dialect entity = .ok statement) :
    ∃ definitions, statement = tableText entity.table definitions ∧
      List.Forall₂ IsDefinitionOf entity.fields definitions := by
  obtain ⟨texts, htexts, rfl⟩ := Except.map_eq_ok.mp h
  obtain ⟨definitions, rfl, hall⟩ := definitions_of_columnDefinitions htexts
  exact ⟨definitions, rfl, hall⟩

theorem map_fst_definitions {fields : List Field} {definitions : List (String × String)}
    (h : List.Forall₂ IsDefinitionOf fields definitions) :
    definitions.map Prod.fst = fields.map Field.column := by
  induction h with
  | nil => rfl
  | cons hdefinition _ ih => rw [List.map_cons, List.map_cons, hdefinition.column, ih]

/-! ## Both dialects -/

/-- A list in which one item is marked has it at one place. -/
theorem exists_place_of_filter {α : Type} {p : α → Bool} {l : List α} {a : α}
    (h : l.filter p = [a]) :
    ∃ place : Nat, l[place]? = some a ∧
      ∀ (i : Nat) b, l[i]? = some b → (p b = true ↔ i = place) := by
  obtain ⟨before, after, rfl, hbefore, ha, hafter⟩ := List.filter_eq_cons_iff.mp h
  rw [List.filter_eq_nil_iff] at hafter
  refine ⟨before.length, by simp, fun i b hb => ?_⟩
  rcases Nat.lt_trichotomy i before.length with hlt | rfl | hlt
  · have hmem : b ∈ before := by grind
    grind
  · grind
  · have hmem : b ∈ after := by grind
    grind

/-- The table of an accepted entity can be created in both dialects or in neither, for the same
field. The statements that create it have one definition for each field, in order and under the
same names. At the place of the key, and only there, they say that it is the key; at any other place
they say that there is always a value just if the normal form of the type of the field is not
optional. -/
theorem createTable_agrees {source : DeclarationSource} {d : Declaration} {entity : Entity}
    (h : (Entity.ofDeclaration source d).outcome = .ok entity) :
    ((∃ statement, createTable .sqlite entity = .ok statement) ↔
      ∃ statement, createTable .postgres entity = .ok statement) ∧
    (∀ field, createTable .sqlite entity = .error field ↔
      createTable .postgres entity = .error field) ∧
    ∃ (place : Nat) (key : Field), entity.fields[place]? = some key ∧
      entity.primaryKey? = some key ∧
      ∀ dialect statement, createTable dialect entity = .ok statement →
        ∃ definitions, statement = tableText entity.table definitions ∧
          definitions.map Prod.fst = entity.fields.map Field.column ∧
          ∀ (i : Nat) (field : Field) (column clause : String),
            entity.fields[i]? = some field → definitions[i]? = some (column, clause) →
              (Says clause "PRIMARY KEY" ↔ i = place) ∧
              (i ≠ place →
                (Says clause "NOT NULL" ↔ field.ty.normalize.nullable = false)) := by
  have herror (field : Field) : createTable .sqlite entity = .error field ↔
      createTable .postgres entity = .error field := by
    rw [Emission.createTable_eq_error, Emission.createTable_eq_error,
      Emission.isUnstored_eq .sqlite .postgres]
  refine ⟨?_, herror, ?_⟩
  · cases hsqlite : createTable .sqlite entity with
    | error field => simp [(herror field).mp hsqlite]
    | ok statement =>
      cases hpostgres : createTable .postgres entity with
      | error field => simp [(herror field).mpr hpostgres] at hsqlite
      | ok statement' => simp
  · obtain ⟨_, members, fields, _, hfields, hentity⟩ := Entity.ofDeclaration_eq_ok.mp h
    obtain ⟨_, _, _, rfl, _⟩ := Entity.ofFields_eq_ok.mp hentity
    obtain ⟨hdeclared, key, hkey, _⟩ := Entity.fieldsOf_eq_ok.mp hfields
    obtain ⟨place, hplace, honly⟩ := exists_place_of_filter hkey
    have hfirst : entity.primaryKey? = some key := by
      rw [Entity.primaryKey?, ← List.head?_filter, hkey, List.head?_cons]
    refine ⟨place, key, hplace, hfirst, fun dialect statement hstatement => ?_⟩
    obtain ⟨definitions, htext, hall⟩ := exists_definitions hstatement
    refine ⟨definitions, htext, map_fst_definitions hall, ?_⟩
    intro i field column clause hfield hdefinition
    obtain ⟨_, hsame, hdefines⟩ := hall.exists_getElem? hfield
    cases hdefinition.symm.trans hsame
    have hprimary : field.primaryKey = true ↔ i = place := honly i field hfield
    refine ⟨hdefines.clause.key.trans hprimary, fun hi => ?_⟩
    have hother : field.primaryKey = false := by rwa [Bool.eq_false_iff, Ne, hprimary]
    obtain ⟨member, _, hmember⟩ := hdeclared.exists_left (List.mem_of_getElem? hfield)
    rw [hdefines.clause.required hother, (Entity.fieldOf_eq_ok.mp hmember).nullable]

/-- The key stands after a field that need not have a value. -/
theorem createTable_agrees_note :
    let body : TypeRef :=
      .generic "Option" [.generic "std::sync::Arc" [.generic "Vec" [.named "u8"]]]
    let d : Declaration := ⟨0, .entity, ⟨"db::Note"⟩, [.entity (some "notes")], none⟩
    let source : DeclarationSource :=
      { declarations := [d]
        members := fun _ =>
          .ok [⟨0, 0, "r#body", .field body, none⟩, ⟨0, 1, "id", .field (.named "jlong"), none⟩]
        annotationsOf := fun member => if member.index = 1 then [.primaryKey true] else [] }
    let fields : List Field := [{ name := "r#body", ty := body, nullable := true },
      { name := "id", ty := .named "jlong", primaryKey := true, autoGenerate := true }]
    let entity : Entity := { name := d.name, table := "notes", fields }
    let text := "CREATE TABLE IF NOT EXISTS notes (body BYTEA, id BIGSERIAL PRIMARY KEY)"
    (Entity.ofDeclaration source d).outcome = .ok entity ∧
      createTable .postgres entity = .ok text ∧
      ∃ definitions, text = tableText "notes" definitions ∧
        definitions.map Prod.fst = ["body", "id"] ∧
        (∀ column clause, definitions[0]? = some (column, clause) →
          ¬ Says clause "PRIMARY KEY" ∧ ¬ Says clause "NOT NULL") ∧
        ∀ column clause, definitions[1]? = some (column, clause) → Says clause "PRIMARY KEY" := by
  intro body d source fields entity text
  have hentity : (Entity.ofDeclaration source d).outcome = .ok entity := by decide +kernel
  have htext : createTable .postgres entity = .ok text := by decide +kernel
  obtain ⟨_, _, place, key, hplace, hkey, hall⟩ := createTable_agrees hentity
  obtain ⟨definitions, hdefinitions, hcolumns, hclauses⟩ := hall .postgres text htext
  have hlast : place = 1 := by
    have hmarked : key.primaryKey = true := List.find?_some hkey
    rcases place with _ | _ | place
    · cases Option.some.inj hplace
      cases hmarked
    · rfl
    · cases hplace
  subst hlast
  have hnames : entity.fields.map Field.column = ["body", "id"] := by decide +kernel
  refine ⟨hentity, htext, definitions, hdefinitions, hcolumns.trans hnames,
    fun column clause h => ?_,
    fun column clause h => ((hclauses 1 _ column clause hplace h).1).mpr rfl⟩
  obtain ⟨hnotKey, hrequired⟩ := hclauses 0 _ column clause rfl h
  exact ⟨by simp [hnotKey], fun h => absurd ((hrequired nofun).mp h) (by decide)⟩

end Sql

end DaoGen
