import DaoGen.Sql.Write
import Mathlib.Data.List.Basic
import Mathlib.Data.List.Nodup

/-!
# Statements that write a row

A `RowWrite` is a generated write as data: which columns it lists, assigns and compares, and which
placeholder stands for the value of each. Its text and its placeholders are both read off the same
list of parts, so that the order of placeholders is that of the text. The statement that is built
for an entity is the text of such a write, and the fields that it binds belong to the columns at
their placeholders.

## Main definitions

* `RowWrite`, `RowWrite.sql`, `RowWrite.placeholders`: writes, their text and their placeholders.
* `RowWrite.ofEntity`: the write of an entity in a dialect.
* `RowWrite.Implements`: a write that does what an operation asks for and binds the given fields.

## Main results

* `WriteStatement.ofEntity_sql`: the statement for an entity is the text of its write.
* `WriteStatement.ofEntity_implements`: each field is bound to its own column.
* `WriteStatement.ofEntity_omits_generated`: a generated field that is no key is not inserted.
-/
namespace DaoGen.Sql

/-! ## Texts of inserts -/

section Equations

variable (table : String) (key : Field) (fields : List Field) (replace : Bool)

theorem onConflict_eq : onConflict key fields =
    " ON CONFLICT (" ++ key.column ++ ") " ++
      if (takenOver key fields).isEmpty then "DO NOTHING"
      else
        "DO UPDATE SET " ++ ", ".intercalate
          ((takenOver key fields).map fun column => column ++ " = EXCLUDED." ++ column) := rfl

theorem insertSql_sqlite : insertSql .sqlite table key fields replace =
    (if replace then "INSERT OR REPLACE" else "INSERT") ++ " INTO " ++ table ++ " " ++
      rowValues .sqlite fields := rfl

theorem insertSql_postgres : insertSql .postgres table key fields replace =
    "INSERT INTO " ++ table ++ " " ++ rowValues .postgres fields ++
      (if replace then onConflict key fields else "") ++
      if key.canonicalType.isInteger then " RETURNING " ++ key.column else "" := rfl

end Equations

/-! ## Parts of statements -/

/-- What the value of a placeholder is for: it is that of a listed column, it is assigned to a
column, or a column is compared with it. -/
inductive Use where
  | value (column : String)
  | assigned (column : String)
  | compared (column : String)
  deriving DecidableEq, Repr

/-- A part of a statement: fixed text, the name of a table or a column, or the placeholder at a
position. -/
inductive Part where
  | text (s : String)
  | name (s : String)
  | placeholder (position : Nat) (use : Use)
  deriving DecidableEq, Repr

namespace Part

/-- What is written for a part in a dialect. -/
def written (dialect : Dialect) : Part → String
  | .text s | .name s => s
  | .placeholder position _ => dialect.placeholder position

def placeholder? : Part → Option (Nat × Use)
  | .text _ | .name _ => none
  | .placeholder position use => some (position, use)

/-- The text of parts in a dialect. -/
def sqlOf (dialect : Dialect) (parts : List Part) : String :=
  String.join (parts.map (written dialect))

/-- The placeholders among parts, from left to right. -/
def placeholdersOf (parts : List Part) : List (Nat × Use) := parts.filterMap placeholder?

/-- Groups of parts with commas between them. -/
def commaSeparated (groups : List (List Part)) : List Part := [.text ", "].intercalate groups

variable {dialect : Dialect}

@[simp] theorem sqlOf_nil : sqlOf dialect [] = "" := rfl

@[simp] theorem sqlOf_cons (part : Part) (parts : List Part) :
    sqlOf dialect (part :: parts) = part.written dialect ++ sqlOf dialect parts := by
  simp [sqlOf]

@[simp] theorem sqlOf_append (parts parts' : List Part) :
    sqlOf dialect (parts ++ parts') = sqlOf dialect parts ++ sqlOf dialect parts' := by
  simp [sqlOf]

@[simp] theorem placeholdersOf_nil : placeholdersOf [] = [] := rfl

@[simp] theorem placeholdersOf_text (s : String) (parts : List Part) :
    placeholdersOf (.text s :: parts) = placeholdersOf parts := rfl

@[simp] theorem placeholdersOf_name (s : String) (parts : List Part) :
    placeholdersOf (.name s :: parts) = placeholdersOf parts := rfl

@[simp] theorem placeholdersOf_placeholder (position : Nat) (use : Use) (parts : List Part) :
    placeholdersOf (.placeholder position use :: parts) =
      (position, use) :: placeholdersOf parts := rfl

@[simp] theorem placeholdersOf_append (parts parts' : List Part) :
    placeholdersOf (parts ++ parts') = placeholdersOf parts ++ placeholdersOf parts' :=
  List.filterMap_append

theorem commaSeparated_cons_cons (group next : List Part) (rest : List (List Part)) :
    commaSeparated (group :: next :: rest) =
      group ++ .text ", " :: commaSeparated (next :: rest) := by
  simp [commaSeparated]

@[simp] theorem sqlOf_commaSeparated (groups : List (List Part)) :
    sqlOf dialect (commaSeparated groups) = ", ".intercalate (groups.map (sqlOf dialect)) := by
  induction groups with
  | nil => rfl
  | cons group rest ih =>
    cases rest with
    | nil => simp [commaSeparated]
    | cons next rest => simp [commaSeparated_cons_cons, ih, written, String.append_assoc]

@[simp] theorem placeholdersOf_commaSeparated (groups : List (List Part)) :
    placeholdersOf (commaSeparated groups) = groups.flatMap placeholdersOf := by
  induction groups with
  | nil => rfl
  | cons group rest ih =>
    cases rest with
    | nil => simp [commaSeparated]
    | cons next rest =>
      rw [commaSeparated_cons_cons, placeholdersOf_append, List.flatMap_cons, ← ih]
      rfl

/-- No part but a placeholder is written with a mark of placeholders, unless one of the given
names holds such a mark. -/
def IsUnmarked (names : List String) : Part → Prop
  | .text s => ∀ c ∈ s.toList, c ≠ '?' ∧ c ≠ '$'
  | .name s => s ∈ names
  | .placeholder .. => True

@[simp] theorem isUnmarked_text {names : List String} {s : String} :
    (text s).IsUnmarked names ↔ ∀ c ∈ s.toList, c ≠ '?' ∧ c ≠ '$' := Iff.rfl

@[simp] theorem isUnmarked_name {names : List String} {s : String} :
    (name s).IsUnmarked names ↔ s ∈ names := Iff.rfl

@[simp] theorem isUnmarked_placeholder (names : List String) (position : Nat) (use : Use) :
    (placeholder position use).IsUnmarked names := trivial

theorem isUnmarked_commaSeparated {α : Type} {names : List String} {items : List α}
    {group : α → List Part} (h : ∀ item ∈ items, ∀ part ∈ group item, part.IsUnmarked names) :
    ∀ part ∈ commaSeparated (items.map group), part.IsUnmarked names := by
  induction items with
  | nil => nofun
  | cons item rest ih =>
    obtain ⟨hitem, hrest⟩ := List.forall_mem_cons.mp h
    cases rest with
    | nil => simpa [commaSeparated] using hitem
    | cons next rest =>
      rw [List.map_cons, List.map_cons, commaSeparated_cons_cons, List.forall_mem_append,
        List.forall_mem_cons]
      exact ⟨hitem, by simp, ih hrest⟩

end Part

/-! ## Writes -/

/-- What is done with a row that has the same key: columns of it are set to those of the new row,
if there are any. -/
structure Conflict where
  key : String
  /-- the columns to set, each with the column of the new row that it is set to -/
  sets : List (String × String)
  deriving DecidableEq, Repr

/-- A statement that writes a row. The value of a column is that of the placeholder at the
position that stands with the column. -/
inductive RowWrite where
  /-- an insert, possibly one that replaces the row that is in its way -/
  | insert (orReplace : Bool) (table : String) (row : List (String × Nat))
    (conflict : Option Conflict) (returning : Option String)
  | update (table : String) (assignments : List (String × Nat)) (key : String × Nat)
  | delete (table : String) (key : String × Nat)
  deriving DecidableEq, Repr

namespace RowWrite

/-- The columns of a new row and their values. -/
def rowParts (row : List (String × Nat)) : List Part :=
  if row.isEmpty then [.text "DEFAULT VALUES"]
  else
    .text "(" :: Part.commaSeparated (row.map fun (column, _) => [.name column]) ++
      .text ") VALUES (" ::
        Part.commaSeparated (row.map fun (column, position) =>
          [.placeholder position (.value column)]) ++ [.text ")"]

def conflictParts (conflict : Conflict) : List Part :=
  [.text " ON CONFLICT (", .name conflict.key, .text ") "] ++
    if conflict.sets.isEmpty then [.text "DO NOTHING"]
    else
      .text "DO UPDATE SET " ::
        Part.commaSeparated (conflict.sets.map fun (column, source) =>
          [.name column, .text " = EXCLUDED.", .name source])

def returningParts (column : String) : List Part := [.text " RETURNING ", .name column]

def assignmentParts (assignments : List (String × Nat)) : List Part :=
  Part.commaSeparated (assignments.map fun (column, position) =>
    [.name column, .text " = ", .placeholder position (.assigned column)])

def keyParts (key : String × Nat) : List Part :=
  [.text " WHERE ", .name key.1, .text " = ", .placeholder key.2 (.compared key.1)]

/-- The parts of a write, from left to right. -/
def parts : RowWrite → List Part
  | .insert orReplace table row conflict returning =>
    [.text (if orReplace then "INSERT OR REPLACE INTO " else "INSERT INTO "), .name table,
      .text " "] ++ rowParts row ++ conflict.elim [] conflictParts ++
      returning.elim [] returningParts
  | .update table assignments key =>
    [.text "UPDATE ", .name table, .text " SET "] ++ assignmentParts assignments ++ keyParts key
  | .delete table key => [.text "DELETE FROM ", .name table] ++ keyParts key

/-- The text of a write in a dialect. -/
def sql (w : RowWrite) (dialect : Dialect) : String := Part.sqlOf dialect w.parts

/-- The placeholders of a write, from left to right. -/
def placeholders (w : RowWrite) : List (Nat × Use) := Part.placeholdersOf w.parts

/-- The table that a write changes. -/
def table : RowWrite → String
  | .insert _ table _ _ _ | .update table _ _ | .delete table _ => table

/-- The columns that are listed for a new row. -/
def listed : RowWrite → List String
  | .insert _ _ row _ _ => row.map Prod.fst
  | .update .. | .delete .. => []

/-- The columns that are assigned in rows that exist. -/
def assigned : RowWrite → List String
  | .update _ assignments _ => assignments.map Prod.fst
  | .insert .. | .delete .. => []

/-- The columns by which rows are found. -/
def compared : RowWrite → List String
  | .update _ _ key | .delete _ key => [key.1]
  | .insert .. => []

def isOrReplace : RowWrite → Bool
  | .insert orReplace .. => orReplace
  | .update .. | .delete .. => false

def conflict? : RowWrite → Option Conflict
  | .insert _ _ _ conflict _ => conflict
  | .update .. | .delete .. => none

/-- The columns besides the key that change in a row in the way of a new one. A row that is
replaced takes all that is listed. -/
def overwritten (w : RowWrite) (key : String) : List String :=
  (if w.isOrReplace then w.listed else w.conflict?.elim [] (·.sets.map Prod.fst)).filter (· != key)

/-! ## Writes of entities -/

/-- The columns of fields, with placeholders from the first on. -/
def numbered (fields : List Field) : List (String × Nat) := (fields.map Field.column).zipIdx 1

/-- The insert of some fields in a dialect. -/
def insertOf (dialect : Dialect) (table : String) (key : Field) (fields : List Field)
    (replace : Bool) : RowWrite :=
  let isPostgres := dialect == .postgres
  .insert (replace && !isPostgres) table (numbered fields)
    (if replace && isPostgres then
      some ⟨key.column, (takenOver key fields).map fun column => (column, column)⟩
    else none)
    (if isPostgres && key.canonicalType.isInteger then some key.column else none)

/-- The write of an entity in a dialect. -/
def ofEntity (dialect : Dialect) (op : WriteOp) (entity : Entity) (key : Field) : RowWrite :=
  match op with
  | .insert => insertOf dialect entity.table key entity.insertFields false
  | .replace => insertOf dialect entity.table key entity.fields true
  | .update =>
    .update entity.table (numbered entity.updateFields) (key.column, entity.updateFields.length + 1)
  | .delete => .delete entity.table (key.column, 1)

/-! ## Texts of writes -/

variable {dialect : Dialect}

@[simp] theorem map_fst_numbered (fields : List Field) :
    (numbered fields).map Prod.fst = fields.map Field.column := by
  simp [numbered]

@[simp] theorem map_snd_numbered (fields : List Field) :
    (numbered fields).map Prod.snd = List.range' 1 fields.length := by
  simp [numbered]

theorem numbered_eq (fields : List Field) :
    numbered fields = (fields.zipIdx 1).map fun (field, i) => (field.column, i) := by
  simp [numbered, List.zipIdx_map]

theorem sqlOf_rowParts (fields : List Field) :
    Part.sqlOf dialect (rowParts (numbered fields)) = rowValues dialect fields := by
  have hcolumns : (numbered fields).map (fun pair => pair.1) = fields.map Field.column :=
    map_fst_numbered fields
  have hpositions : (numbered fields).map (fun pair => dialect.placeholder pair.2) =
      (List.range' 1 fields.length).map dialect.placeholder := by
    rw [← map_snd_numbered, List.map_map]
    rfl
  have hempty : (numbered fields).isEmpty = fields.isEmpty := by cases fields <;> rfl
  cases hfields : fields.isEmpty with
  | true => simp [rowParts, rowValues, hempty, hfields, Part.written]
  | false =>
    simp [rowParts, rowValues, hempty, hfields, Part.written, Function.comp_def, hcolumns,
      hpositions, columnList, Dialect.placeholders, String.append_assoc]

theorem sqlOf_conflictParts (key : Field) (fields : List Field) :
    Part.sqlOf dialect (conflictParts
      ⟨key.column, (takenOver key fields).map fun column => (column, column)⟩) =
      onConflict key fields := by
  rw [onConflict_eq]
  cases h : (takenOver key fields).isEmpty with
  | true => simp [conflictParts, h, Part.written, String.append_assoc]
  | false => simp [conflictParts, h, Part.written, Function.comp_def, String.append_assoc]

theorem sql_insertOf (table : String) (key : Field) (fields : List Field) (replace : Bool) :
    (insertOf dialect table key fields replace).sql dialect =
      insertSql dialect table key fields replace := by
  cases dialect with
  | sqlite =>
    rw [insertSql_sqlite]
    cases replace <;>
      simp [insertOf, sql, parts, sqlOf_rowParts, Part.written, String.append_assoc]
  | postgres =>
    rw [insertSql_postgres]
    cases replace <;> cases hreturns : key.canonicalType.isInteger <;>
      simp [insertOf, sql, parts, sqlOf_rowParts, sqlOf_conflictParts, returningParts,
        Part.written, hreturns, String.append_assoc]

theorem sqlOf_assignmentParts (fields : List Field) :
    Part.sqlOf dialect (assignmentParts (numbered fields)) =
      dialect.assignments (fields.map Field.column) := by
  have hpairs : numbered fields =
      (fields.map Field.column).zipIdx.map fun (column, i) => (column, i + 1) := by
    simp [numbered, List.zipIdx_succ]
  simp [assignmentParts, Dialect.assignments, hpairs, Function.comp_def, Part.written,
    String.append_assoc]

theorem sqlOf_keyParts (key : Field) (position : Nat) :
    Part.sqlOf dialect (keyParts (key.column, position)) = whereKey dialect key position := by
  simp [keyParts, whereKey, Part.written, String.append_assoc]

end RowWrite

/-- The statement for an entity is the text of its write. -/
theorem WriteStatement.ofEntity_sql {dialect : Dialect} {op : WriteOp} {entity : Entity}
    {key : Field} {statement : WriteStatement} (hkey : entity.primaryKey? = some key)
    (h : ofEntity dialect op entity = .ok statement) :
    statement.sql = (RowWrite.ofEntity dialect op entity key).sql dialect := by
  unfold ofEntity at h
  rw [hkey] at h
  cases op with
  | insert =>
    cases h
    exact (RowWrite.sql_insertOf ..).symm
  | replace =>
    cases h
    exact (RowWrite.sql_insertOf ..).symm
  | update =>
    dsimp only at h
    split at h
    · cases h
    · cases h
      simp [updateOf, RowWrite.ofEntity, RowWrite.sql, RowWrite.parts,
        RowWrite.sqlOf_assignmentParts, RowWrite.sqlOf_keyParts, Part.written, String.append_assoc]
  | delete =>
    cases h
    simp [deleteOf, RowWrite.ofEntity, RowWrite.sql, RowWrite.parts, RowWrite.sqlOf_keyParts,
      Part.written, String.append_assoc]

/-! ## What writes do -/

/-- What the placeholder of a field is for. -/
def Use.of (op : WriteOp) (field : Field) : Use :=
  match op with
  | .insert | .replace => .value field.column
  | .update => if field.primaryKey then .compared field.column else .assigned field.column
  | .delete => .compared field.column

/-- The columns of an entity besides the key. -/
def otherColumns (entity : Entity) : List String :=
  (entity.fields.filter (!·.primaryKey)).map Field.column

namespace RowWrite

/-- A write does what an operation asks for with an entity that has the given key, when the given
fields are supplied for its placeholders. -/
structure Implements (w : RowWrite) (dialect : Dialect) (op : WriteOp) (entity : Entity)
    (key : Field) (fields : List Field) : Prop where
  table : w.table = entity.table
  /-- An insert leaves out generated fields, a replacing one no field, an update ends with the
  key. -/
  supplied : fields =
    match op with
    | .insert => entity.fields.filter (!·.autoGenerate)
    | .replace => entity.fields
    | .update => entity.fields.filter (!·.primaryKey) ++ [key]
    | .delete => [key]
  /-- The placeholders are numbered from 1, and each is for the field in its place. -/
  placeholders : w.placeholders = (fields.zipIdx 1).map fun (field, i) => (i, .of op field)
  listed : w.listed = if op = .insert ∨ op = .replace then fields.map Field.column else []
  assigned : w.assigned = if op = .update then otherColumns entity else []
  compared : w.compared = if op = .update ∨ op = .delete then [key.column] else []
  isOrReplace : w.isOrReplace = decide (op = .replace ∧ dialect = .sqlite)
  /-- A row in the way takes each column but the key from the column of the same name. -/
  conflict : w.conflict? =
    if op = .replace ∧ dialect = .postgres then
      some ⟨key.column, (otherColumns entity).map fun column => (column, column)⟩
    else none
  /-- Which columns change does not depend on the dialect. -/
  overwritten : w.overwritten key.column = if op = .replace then otherColumns entity else []
  /-- Placeholders are the only marks, if there are none in the names. -/
  isUnmarked : ∀ part ∈ w.parts, part.IsUnmarked (entity.table :: entity.fields.map Field.column)

/-! ## Parts of generated writes -/

@[simp] theorem placeholdersOf_rowParts (row : List (String × Nat)) :
    Part.placeholdersOf (rowParts row) = row.map fun (column, i) => (i, .value column) := by
  rw [List.map_eq_flatMap]
  cases h : row.isEmpty with
  | true => simp [rowParts, List.isEmpty_iff.mp h]
  | false => simp [rowParts, h, List.flatMap_map]

@[simp] theorem placeholdersOf_assignmentParts (assignments : List (String × Nat)) :
    Part.placeholdersOf (assignmentParts assignments) =
      assignments.map fun (column, i) => (i, .assigned column) := by
  rw [List.map_eq_flatMap]
  simp [assignmentParts, List.flatMap_map]

@[simp] theorem placeholdersOf_conflictParts (conflict : Conflict) :
    Part.placeholdersOf (conflictParts conflict) = [] := by
  cases h : conflict.sets.isEmpty <;> simp [conflictParts, h, List.flatMap_map]

section Names

variable {names : List String}

theorem isUnmarked_rowParts {row : List (String × Nat)} (h : ∀ pair ∈ row, pair.1 ∈ names) :
    ∀ part ∈ rowParts row, part.IsUnmarked names := by
  unfold rowParts
  split
  · simp
  · have hlisted : ∀ part ∈ Part.commaSeparated (row.map fun pair => [.name pair.1]),
        part.IsUnmarked names :=
      Part.isUnmarked_commaSeparated fun pair hpair => by simp [h pair hpair]
    have hvalues : ∀ part ∈ Part.commaSeparated (row.map fun pair =>
        [.placeholder pair.2 (.value pair.1)]), part.IsUnmarked names :=
      Part.isUnmarked_commaSeparated fun pair hpair => by simp
    simp only [List.forall_mem_append, List.forall_mem_cons]
    exact ⟨⟨⟨by simp, hlisted⟩, by simp, hvalues⟩,
      by simp, nofun⟩

theorem isUnmarked_conflictParts {conflict : Conflict} (hkey : conflict.key ∈ names)
    (h : ∀ pair ∈ conflict.sets, pair.1 ∈ names ∧ pair.2 ∈ names) :
    ∀ part ∈ conflictParts conflict, part.IsUnmarked names := by
  unfold conflictParts
  rw [List.forall_mem_append]
  refine ⟨by simp [hkey], ?_⟩
  split
  · simp
  · rw [List.forall_mem_cons]
    exact ⟨by simp, Part.isUnmarked_commaSeparated fun pair hpair => by
      simp [h pair hpair]⟩

theorem isUnmarked_assignmentParts {assignments : List (String × Nat)}
    (h : ∀ pair ∈ assignments, pair.1 ∈ names) :
    ∀ part ∈ assignmentParts assignments, part.IsUnmarked names :=
  Part.isUnmarked_commaSeparated fun pair hpair => by simp [h pair hpair]

theorem isUnmarked_keyParts {key : String × Nat} (h : key.1 ∈ names) :
    ∀ part ∈ keyParts key, part.IsUnmarked names := by
  simp [keyParts, h]

end Names

theorem placeholders_insertOf (table : String) (key : Field) (fields : List Field)
    (replace : Bool) : (insertOf dialect table key fields replace).placeholders =
      (fields.zipIdx 1).map fun (field, i) => (i, .value field.column) := by
  have hconflict (conflict : Option Conflict) :
      Part.placeholdersOf (conflict.elim [] conflictParts) = [] := by
    cases conflict <;> simp
  have hreturning (returning : Option String) :
      Part.placeholdersOf (returning.elim [] returningParts) = [] := by
    cases returning <;> simp [returningParts]
  simp [placeholders, insertOf, parts, hconflict, hreturning, numbered_eq]

theorem forall_mem_numbered {names : List String} {fields : List Field}
    (h : ∀ field ∈ fields, field.column ∈ names) : ∀ pair ∈ numbered fields, pair.1 ∈ names := by
  intro pair hpair
  rw [numbered_eq] at hpair
  obtain ⟨⟨field, i⟩, hmem, rfl⟩ := List.mem_map.mp hpair
  exact h field (List.fst_mem_of_mem_zipIdx hmem)

theorem isUnmarked_insertOf {names : List String} {table : String} {key : Field}
    {fields : List Field} {replace : Bool} (htable : table ∈ names) (hkey : key.column ∈ names)
    (hfields : ∀ field ∈ fields, field.column ∈ names) :
    ∀ part ∈ (insertOf dialect table key fields replace).parts, part.IsUnmarked names := by
  have hrow := isUnmarked_rowParts (forall_mem_numbered hfields)
  have hconflict : ∀ part ∈ conflictParts
      ⟨key.column, (takenOver key fields).map fun column => (column, column)⟩,
      part.IsUnmarked names := by
    refine isUnmarked_conflictParts hkey fun pair hpair => ?_
    obtain ⟨column, hcolumn, rfl⟩ := List.mem_map.mp hpair
    obtain ⟨field, hfield, rfl⟩ := List.mem_map.mp (List.mem_of_mem_filter hcolumn)
    exact ⟨hfields field hfield, hfields field hfield⟩
  have hreturning : ∀ part ∈ returningParts key.column, part.IsUnmarked names := by
    simp [returningParts, hkey]
  simp only [insertOf, parts, List.forall_mem_append]
  refine ⟨⟨⟨?_, hrow⟩, ?_⟩, ?_⟩
  · cases replace <;> cases dialect <;> simp [htable]
  · split
    · exact hconflict
    · nofun
  · split
    · exact hreturning
    · nofun

end RowWrite

/-! ## Statements for entities -/

section Entity

variable {entity : Entity} {key : Field}

/-- The key is the only field that is marked as one. -/
theorem primaryKey?_eq_some (hkey : entity.fields.filter (·.primaryKey) = [key]) :
    entity.primaryKey? = some key := by
  rw [Entity.primaryKey?, ← List.head?_filter, hkey, List.head?_cons]

theorem key_mem (hkey : entity.fields.filter (·.primaryKey) = [key]) :
    key ∈ entity.fields ∧ key.primaryKey = true := by
  rw [← List.mem_filter, hkey]
  exact List.mem_singleton_self key

/-- With distinct columns, the column of the key tells it from the other fields. -/
theorem takenOver_eq (hkey : entity.fields.filter (·.primaryKey) = [key])
    (hcolumns : (entity.fields.map Field.column).Nodup) :
    takenOver key entity.fields = otherColumns entity := by
  obtain ⟨hmem, hprimary⟩ := key_mem hkey
  rw [takenOver, otherColumns, List.filter_map]
  refine congrArg (List.map Field.column) (List.filter_congr fun field hfield => ?_)
  have hiff : field.column = key.column ↔ field.primaryKey = true := by
    constructor
    · intro hcolumn
      rwa [List.inj_on_of_nodup_map hcolumns hfield hmem hcolumn]
    · intro hprimary
      have : field ∈ entity.fields.filter (·.primaryKey) := List.mem_filter.mpr ⟨hfield, hprimary⟩
      rw [hkey, List.mem_singleton] at this
      rw [this]
  rw [Function.comp_apply, Bool.eq_iff_iff]
  simp [hiff]

theorem column_mem_names {field : Field} (h : field ∈ entity.fields) :
    field.column ∈ entity.table :: entity.fields.map Field.column :=
  .tail _ (List.mem_map_of_mem h)

namespace RowWrite

variable {dialect : Dialect}

theorem implements_insert (hkey : entity.fields.filter (·.primaryKey) = [key]) :
    (ofEntity dialect .insert entity key).Implements dialect .insert entity key
      entity.insertFields where
  table := rfl
  supplied := rfl
  placeholders := placeholders_insertOf ..
  listed := map_fst_numbered _
  assigned := rfl
  compared := rfl
  isOrReplace := rfl
  conflict := rfl
  overwritten := rfl
  isUnmarked := isUnmarked_insertOf List.mem_cons_self (column_mem_names (key_mem hkey).1)
    fun _ hfield => column_mem_names (List.mem_of_mem_filter hfield)

theorem implements_replace (hkey : entity.fields.filter (·.primaryKey) = [key])
    (hcolumns : (entity.fields.map Field.column).Nodup) :
    (ofEntity dialect .replace entity key).Implements dialect .replace entity key
      entity.fields where
  table := rfl
  supplied := rfl
  placeholders := placeholders_insertOf ..
  listed := map_fst_numbered _
  assigned := rfl
  compared := rfl
  isOrReplace := by cases dialect <;> rfl
  conflict := by
    cases dialect with
    | sqlite => rfl
    | postgres => simp [ofEntity, insertOf, conflict?, takenOver_eq hkey hcolumns]
  overwritten := by
    rw [if_pos rfl, ← takenOver_eq hkey hcolumns]
    cases dialect with
    | sqlite =>
      exact congrArg (List.filter (· != key.column)) (map_fst_numbered entity.fields)
    | postgres =>
      simp [overwritten, isOrReplace, ofEntity, insertOf, conflict?, Function.comp_def, takenOver]
  isUnmarked := isUnmarked_insertOf List.mem_cons_self (column_mem_names (key_mem hkey).1)
    fun _ hfield => column_mem_names hfield

theorem implements_update (hkey : entity.fields.filter (·.primaryKey) = [key]) :
    (ofEntity dialect .update entity key).Implements dialect .update entity key
      (entity.updateFields ++ [key]) where
  table := rfl
  supplied := rfl
  placeholders := by
    have hassigned : ∀ pair ∈ entity.updateFields.zipIdx 1,
        (pair.2, Use.of .update pair.1) = (pair.2, .assigned pair.1.column) := by
      intro pair hpair
      have hnot := List.of_mem_filter (List.fst_mem_of_mem_zipIdx hpair)
      simp_all [Use.of]
    rw [List.zipIdx_append, List.map_append, List.map_congr_left hassigned]
    simp [placeholders, ofEntity, parts, keyParts, numbered_eq, Use.of, (key_mem hkey).2,
      Nat.add_comm]
  listed := rfl
  assigned := map_fst_numbered _
  compared := rfl
  isOrReplace := rfl
  conflict := rfl
  overwritten := rfl
  isUnmarked := by
    have hcolumn := column_mem_names (key_mem hkey).1
    have hassigned := forall_mem_numbered fun field (hfield : field ∈ entity.updateFields) =>
      column_mem_names (List.mem_of_mem_filter hfield)
    simp only [ofEntity, parts, List.forall_mem_append]
    exact ⟨⟨by simp, isUnmarked_assignmentParts hassigned⟩, isUnmarked_keyParts hcolumn⟩

theorem implements_delete (hkey : entity.fields.filter (·.primaryKey) = [key]) :
    (ofEntity dialect .delete entity key).Implements dialect .delete entity key [key] where
  table := rfl
  supplied := rfl
  placeholders := rfl
  listed := rfl
  assigned := rfl
  compared := rfl
  isOrReplace := rfl
  conflict := rfl
  overwritten := rfl
  isUnmarked := by
    have hcolumn := column_mem_names (key_mem hkey).1
    simp only [ofEntity, parts, List.forall_mem_append]
    exact ⟨by simp, isUnmarked_keyParts hcolumn⟩

end RowWrite

namespace WriteStatement

variable {dialect : Dialect} {op : WriteOp}

/-- There is no statement just for an update of nothing. -/
theorem ofEntity_eq_error_iff (hkey : entity.fields.filter (·.primaryKey) = [key]) :
    (∃ fault, ofEntity dialect op entity = .error fault) ↔
      op = .update ∧ ∀ field ∈ entity.fields, field.primaryKey = true := by
  have hnone : entity.updateFields.isEmpty = true ↔
      ∀ field ∈ entity.fields, field.primaryKey = true := by
    simp [Entity.updateFields]
  unfold ofEntity
  rw [primaryKey?_eq_some hkey]
  cases op with
  | insert | replace | delete => simp
  | update =>
    rw [← hnone]
    cases entity.updateFields.isEmpty <;> simp

/-- The statement for an entity with one key and distinct columns is the text of a write that
does what the operation asks for, and the fields that it binds are those of its placeholders. -/
theorem ofEntity_implements (hkey : entity.fields.filter (·.primaryKey) = [key])
    (hcolumns : (entity.fields.map Field.column).Nodup) (dialect : Dialect) (op : WriteOp) :
    ((∃ fault, ofEntity dialect op entity = .error fault) ↔
      op = .update ∧ ∀ field ∈ entity.fields, field.primaryKey = true) ∧
    ∀ statement, ofEntity dialect op entity = .ok statement →
      ∃ w : RowWrite, statement.sql = w.sql dialect ∧
        w.Implements dialect op entity key statement.fields := by
  refine ⟨ofEntity_eq_error_iff hkey, fun statement h => ?_⟩
  refine ⟨.ofEntity dialect op entity key, ofEntity_sql (primaryKey?_eq_some hkey) h, ?_⟩
  unfold ofEntity at h
  rw [primaryKey?_eq_some hkey] at h
  cases op with
  | insert =>
    cases h
    exact RowWrite.implements_insert hkey
  | replace =>
    cases h
    exact RowWrite.implements_replace hkey hcolumns
  | update =>
    dsimp only at h
    split at h
    · cases h
    · cases h
      exact RowWrite.implements_update hkey
  | delete =>
    cases h
    exact RowWrite.implements_delete hkey

end WriteStatement

end Entity

/-- A person with a generated key, whose replacing insert takes the key from the caller. -/
theorem WriteStatement.ofEntity_implements_person :
    let id : Field := ⟨"id", .named "i64", false, true, true⟩
    let name : Field := ⟨"name", .named "String", false, false, false⟩
    let person : Entity := ⟨⟨"db::Person"⟩, "people", [id, name], [], none, none⟩
    let statement : WriteStatement :=
      ⟨"INSERT INTO people (id, name) VALUES ($1, $2) ON CONFLICT (id) DO UPDATE SET " ++
        "name = EXCLUDED.name RETURNING id", [id, name], true⟩
    ofEntity .postgres .replace person = .ok statement ∧
      ∃ w : RowWrite, statement.sql = w.sql .postgres ∧
        w.Implements .postgres .replace person id [id, name] := by
  intro id name person statement
  have hstatement : ofEntity .postgres .replace person = .ok statement := by decide +kernel
  exact ⟨hstatement,
    (ofEntity_implements (by decide +kernel) (by decide +kernel) .postgres .replace).2 _ hstatement⟩

/-- A generated field that is no key is left out of an insert too. -/
theorem WriteStatement.ofEntity_omits_generated :
    let id : Field := ⟨"id", .named "i64", false, true, false⟩
    let rev : Field := ⟨"rev", .named "i64", false, false, true⟩
    let note : Entity := ⟨⟨"db::Note"⟩, "note", [id, rev], [], none, none⟩
    note.fields.filter (·.primaryKey) = [id] ∧ (note.fields.map Field.column).Nodup ∧
      note.fields.filter (fun field => !(field.primaryKey && field.autoGenerate)) = [id, rev] ∧
      ofEntity .sqlite .insert note = .ok ⟨"INSERT INTO note (id) VALUES (?)", [id], true⟩ := by
  decide +kernel

end DaoGen.Sql
