import DaoGen.Proofs.Emission.Recording
import DaoGen.Proofs.Sql.RowWrite
import DaoGen.Proofs.Sql.WriteWords

/-!
# Records of generated writes

The words of a generated write are keywords, its table, and columns with punctuation stuck to them.
So a reader that knows nothing but words finds the table, and no column is taken for a keyword that
would make an insert one that overwrites rows. What is recorded of a write is then what is recorded
of a query with the text of its statement.

## Main results

* `ofEntity_readBack`: the statement for an entity is read as the write that it is for.
* `ofEntity_misread`: a table that is named like a keyword is not found.
-/
namespace DaoGen.Emission

/-- A statement is read as one that does something to the rows of a table. -/
structure ReadsAs (sql : String) (operation : RecordOperation) (table : String) : Prop where
  operation : RecordOperation.ofQuery? sql = some operation
  table : Sql.mutatedTable? sql = some table

section Statements

open Sql

variable {table : String} (htable : IsPlainName table) (rest : String)
  (hrest : rest.toList.head? = some ' ')

include htable hrest

/-- An insert overwrites rows just if `DO UPDATE` stands after the table. -/
theorem readsAs_insert :
    ReadsAs ("INSERT INTO " ++ table ++ rest)
      (if hasDoUpdate (Text.upper table :: keywordsOf rest) then .upsert else .insert) table := by
  have hfront : keywordsOf "INSERT INTO " = ["INSERT", "INTO"] ∧
      verbOf "INSERT INTO " = .insert := by decide +kernel
  obtain ⟨hverb, hkeywords, hread⟩ :=
    read_front htable hrest (by decide) hfront.1 (by simp) (by rw [hfront.2]; rfl)
  rw [hfront.2] at hverb
  refine ⟨?_, hread⟩
  rw [RecordOperation.ofQuery?, hverb, replacesRows, hverb, hkeywords]
  simp [hasOrReplace, hasDoUpdate_cons "INSERT", hasDoUpdate_cons "INTO"]

theorem readsAs_insertOrReplace :
    ReadsAs ("INSERT OR REPLACE INTO " ++ table ++ rest) .upsert table := by
  have hfront : keywordsOf "INSERT OR REPLACE INTO " = ["INSERT", "OR", "REPLACE", "INTO"] ∧
      verbOf "INSERT OR REPLACE INTO " = .insert := by decide +kernel
  obtain ⟨hverb, hkeywords, hread⟩ :=
    read_front htable hrest (by decide) hfront.1 (by simp) (by rw [hfront.2]; rfl)
  rw [hfront.2] at hverb
  refine ⟨?_, hread⟩
  rw [RecordOperation.ofQuery?, hverb, replacesRows, hverb, hkeywords]
  simp [hasOrReplace]

/-- After `UPDATE`, the word `OR` is no table. -/
theorem readsAs_update (hor : Text.upper table ≠ "OR") :
    ReadsAs ("UPDATE " ++ table ++ rest) .update table := by
  have hfront : keywordsOf "UPDATE " = ["UPDATE"] ∧ verbOf "UPDATE " = .update := by
    decide +kernel
  obtain ⟨hverb, -, hread⟩ :=
    read_front htable hrest (by decide) hfront.1 (by simp) (by simp [hfront.2, tablePlace?, hor])
  rw [hfront.2] at hverb
  exact ⟨by rw [RecordOperation.ofQuery?, hverb], hread⟩

theorem readsAs_delete : ReadsAs ("DELETE FROM " ++ table ++ rest) .delete table := by
  have hfront : keywordsOf "DELETE FROM " = ["DELETE", "FROM"] ∧
      verbOf "DELETE FROM " = .delete := by decide +kernel
  obtain ⟨hverb, -, hread⟩ :=
    read_front htable hrest (by decide) hfront.1 (by simp) (by rw [hfront.2]; rfl)
  rw [hfront.2] at hverb
  exact ⟨by rw [RecordOperation.ofQuery?, hverb], hread⟩

end Statements

/-! ## Statements for entities -/

section Entity

open Sql

variable {dialect : Dialect} {table : String} {key : Field} {fields : List Field}
  (htable : IsPlainName table) (hfields : ∀ field ∈ fields, IsWord field.column)

include htable hfields

/-- A plain insert overwrites no rows, whatever its columns are called. -/
theorem readsAs_plainInsert (hkey : IsWord key.column) :
    ReadsAs (insertSql dialect table key fields false) .insert table := by
  have hrow : "UPDATE" ∉ keywordsOf (rowValues dialect fields) := by
    intro hmem
    obtain ⟨w, hw, hupdate⟩ := List.mem_map.mp hmem
    exact upper_ne_update_of_mem_wordsOf_rowValues hfields hw hupdate
  have hplain : ReadsAs ("INSERT INTO " ++ table ++ (" " ++ rowValues dialect fields)) .insert
      table := by
    have hread := readsAs_insert htable (" " ++ rowValues dialect fields) (by simp)
    rwa [keywordsOf_blank_append, hasDoUpdate_cons_of_notMem hrow] at hread
  have hreturning : ReadsAs ("INSERT INTO " ++ table ++ (" " ++ (rowValues dialect fields ++
      (" RETURNING " ++ key.column)))) .insert table := by
    have hread := readsAs_insert htable
      (" " ++ (rowValues dialect fields ++ (" RETURNING " ++ key.column))) (by simp)
    have hkeywords : keywordsOf (rowValues dialect fields ++ (" RETURNING " ++ key.column)) =
        keywordsOf (rowValues dialect fields) ++ "RETURNING" :: [Text.upper key.column] := by
      rw [keywordsOf_append_of_head? (c := ' ') (by simp) (by decide),
        keywordsOf_append_of_getLast? (c := ' ') (by decide) (by decide),
        keywordsOf_of_isWord hkey,
        show keywordsOf " RETURNING " = ["RETURNING"] by decide +kernel, List.singleton_append]
    have hdo : hasDoUpdate (Text.upper table :: keywordsOf (rowValues dialect fields) ++
        "RETURNING" :: [Text.upper key.column]) = false := by
      rw [hasDoUpdate_append_cons (by decide) (by decide), hasDoUpdate_cons_of_notMem hrow,
        hasDoUpdate_singleton, Bool.or_false]
    rwa [keywordsOf_blank_append, hkeywords, ← List.cons_append, hdo] at hread
  cases dialect with
  | sqlite => simpa [insertSql_sqlite, String.append_assoc] using hplain
  | postgres =>
    cases hinteger : key.canonicalType.isInteger with
    | true => simpa [insertSql_postgres, hinteger, String.append_assoc] using hreturning
    | false => simpa [insertSql_postgres, hinteger, String.append_assoc] using hplain

omit hfields in
/-- A replacing insert overwrites rows in every dialect. -/
theorem readsAs_replacingInsert (htaken : takenOver key fields ≠ []) :
    ReadsAs (insertSql dialect table key fields true) .upsert table := by
  cases dialect with
  | sqlite =>
    have hread := readsAs_insertOrReplace htable (" " ++ rowValues .sqlite fields) (by simp)
    simpa [insertSql_sqlite, String.append_assoc] using hread
  | postgres =>
    let row := " " ++ rowValues .postgres fields ++ " ON CONFLICT (" ++ key.column ++ ")"
    let sets := ", ".intercalate ((takenOver key fields).map fun column =>
        column ++ " = EXCLUDED." ++ column) ++
      if key.canonicalType.isInteger then " RETURNING " ++ key.column else ""
    have hsql : insertSql .postgres table key fields true =
        "INSERT INTO " ++ table ++ (row ++ (" DO UPDATE SET " ++ sets)) := by
      have hcut (s : String) :
          ") " ++ ("DO UPDATE SET " ++ s) = ")" ++ (" DO UPDATE SET " ++ s) := by
        rw [← String.append_assoc, ← String.append_assoc]
        rfl
      simp [insertSql_postgres, onConflict_eq, htaken, row, sets, hcut, String.append_assoc]
    have hread := readsAs_insert htable (row ++ (" DO UPDATE SET " ++ sets)) (by simp [row])
    rw [hasDoUpdate_cons, hasDoUpdate_keywordsOf, Bool.or_true] at hread
    exact hsql ▸ hread

end Entity

theorem readsAs_updateOf {dialect : Dialect} {entity : Entity} {key : Field}
    (htable : Sql.IsPlainName entity.table) (hor : Text.upper entity.table ≠ "OR") :
    ReadsAs (Sql.WriteStatement.updateOf dialect entity key).sql .update entity.table := by
  have hread := readsAs_update htable (" SET " ++
    (dialect.assignments (entity.updateFields.map Field.column) ++
      Sql.whereKey dialect key (entity.updateFields.length + 1))) (by simp) hor
  simpa [Sql.WriteStatement.updateOf, String.append_assoc] using hread

theorem readsAs_deleteOf {dialect : Dialect} {entity : Entity} {key : Field}
    (htable : Sql.IsPlainName entity.table) :
    ReadsAs (Sql.WriteStatement.deleteOf dialect entity key).sql .delete entity.table :=
  readsAs_delete htable _ (by simp [Sql.whereKey])

/-! ## Records -/

/-- An operation is recorded as one that does something to the rows of a table. -/
def RecordsAs (ctx : Context) (op : Operation) (operation : RecordOperation) (table : String) :
    Prop :=
  ∃ recording, Recording.ofOperation? ctx op = .ok (some recording) ∧
    recording.operation = operation ∧ recording.table = table

/-- A write is recorded as what it does to the table of its entity, if it can be recorded. -/
theorem recordsAs_write {ctx : Context} {op : Operation} {write : Write} {entity : Entity}
    (hkind : op.kind = .write write) (hentity : ctx.model.entity? write.entity = some entity)
    {recording? : Option Recording} (h : Recording.ofOperation? ctx op = .ok recording?) :
    RecordsAs ctx op (.ofWrite write.op) entity.table := by
  have hmutating : op.isMutating = true := by rw [Operation.isMutating, hkind]
  have hwrite := h
  unfold Recording.ofOperation? at hwrite
  rw [hmutating, hkind] at hwrite
  obtain ⟨recording, hrecording, hsome⟩ := Except.bind_eq_ok.mp hwrite
  cases Except.pure_eq_ok.mp hsome
  refine ⟨recording, h, ?_⟩
  unfold Recording.ofWrite at hrecording
  rw [hentity] at hrecording
  obtain ⟨param, _, hrecording⟩ := Except.bind_eq_ok.mp hrecording
  obtain ⟨attachment, _, hrecording⟩ := Except.bind_eq_ok.mp hrecording
  cases Except.pure_eq_ok.mp hrecording
  exact ⟨rfl, rfl⟩

/-- A query is recorded as what its neutral text is read as. -/
theorem recordsAs_query {ctx : Context} {op : Operation} {query : Query}
    (hkind : op.kind = .query query) {operation : RecordOperation} {table : String}
    (h : ReadsAs query.sql operation table) : RecordsAs ctx op operation table := by
  have hmutation : Sql.isMutation query.sql = true := by
    rw [← RecordOperation.isSome_ofQuery?, h.operation, Option.isSome_some]
  have hmutating : op.isMutating = true := by
    rw [Operation.isMutating, hkind]
    exact hmutation
  refine ⟨.ofStatement table operation, ?_, rfl, rfl⟩
  unfold Recording.ofOperation?
  rw [hmutating, hkind]
  simp only [Recording.ofQuery, h.operation, h.table]
  rfl

section Entity

open Sql

variable {entity : Entity} {key : Field}

/-- The statement for an entity whose columns are identifiers is read as the write that it is for,
if a plain name other than `or` is that of the table. So a query with its text is recorded as the
write is. -/
theorem ofEntity_readBack (hkey : entity.fields.filter (·.primaryKey) = [key])
    (hother : ∃ field ∈ entity.fields, field.primaryKey = false)
    (hcolumns : (entity.fields.map Field.column).Nodup)
    (hnames : ∀ field ∈ entity.fields, Text.isIdentifierText field.column.toList = true)
    (htable : IsPlainName entity.table) (hor : Text.upper entity.table ≠ "OR")
    (dialect : Dialect) (op : WriteOp) :
    ∃ statement, WriteStatement.ofEntity dialect op entity = .ok statement ∧
      ReadsAs statement.sql (.ofWrite op) entity.table ∧
      ∀ (ctx : Context) (declared written : Operation) (write : Write) (query : Query),
        ctx.model.entity? write.entity = some entity → write.op = op →
        declared.kind = .write write → written.kind = .query query → query.sql = statement.sql →
        RecordsAs ctx written (.ofWrite op) entity.table ∧
          ∀ recording?, Recording.ofOperation? ctx declared = .ok recording? →
            RecordsAs ctx declared (.ofWrite op) entity.table := by
  have hwords : ∀ field ∈ entity.fields, IsWord field.column := fun field hfield =>
    isWord_of_isIdentifierText (hnames field hfield)
  have hkeyWord : IsWord key.column := hwords key (key_mem hkey).1
  have hupdates : ¬ entity.updateFields.isEmpty = true := by
    simpa [Entity.updateFields] using hother
  have htaken : takenOver key entity.fields ≠ [] := by
    rw [takenOver_eq hkey hcolumns]
    simpa [otherColumns] using hother
  obtain ⟨statement, hstatement, hread⟩ : ∃ statement,
      WriteStatement.ofEntity dialect op entity = .ok statement ∧
        ReadsAs statement.sql (.ofWrite op) entity.table := by
    unfold WriteStatement.ofEntity
    rw [primaryKey?_eq_some hkey]
    cases op with
    | insert =>
      exact ⟨_, rfl, readsAs_plainInsert htable
        (fun field hfield => hwords field (List.mem_of_mem_filter hfield)) hkeyWord⟩
    | replace => exact ⟨_, rfl, readsAs_replacingInsert htable htaken⟩
    | update => exact ⟨_, if_neg hupdates, readsAs_updateOf htable hor⟩
    | delete => exact ⟨_, rfl, readsAs_deleteOf htable⟩
  refine ⟨statement, hstatement, hread, ?_⟩
  intro ctx declared written write query hentity hop hdeclared hwritten hsql
  refine ⟨recordsAs_query hwritten (hsql ▸ hread), fun recording? hrecording => ?_⟩
  exact hop ▸ recordsAs_write hdeclared hentity hrecording

end Entity

/-- An insert is no upsert even if its table and column are called `Do` and `update`. -/
theorem ofEntity_readBack_keywords :
    let id : Field := ⟨"id", .named "i64", false, true, true⟩
    let update : Field := ⟨"update", .named "String", false, false, false⟩
    let entity : Entity := ⟨⟨"db::Do"⟩, "Do", [id, update], [], none, none⟩
    let statement : Sql.WriteStatement :=
      ⟨"INSERT INTO Do (update) VALUES ($1) RETURNING id", [update], true⟩
    Sql.WriteStatement.ofEntity .postgres .insert entity = .ok statement ∧
      ReadsAs statement.sql .insert "Do" := by
  intro id update entity statement
  have hstatement : Sql.WriteStatement.ofEntity .postgres .insert entity = .ok statement := by
    decide +kernel
  have hkey : entity.fields.filter (·.primaryKey) = [id] := by decide +kernel
  obtain ⟨found, hfound, hread, -⟩ := ofEntity_readBack hkey ⟨update, by decide +kernel, rfl⟩
    (by decide +kernel) (by decide +kernel) (by decide +kernel) (by decide +kernel) .postgres
    .insert
  cases hstatement.symm.trans hfound
  exact ⟨hstatement, hread⟩

/-- A table called `Or` is taken for a keyword after `UPDATE`. -/
theorem ofEntity_misread :
    let id : Field := ⟨"id", .named "i64", false, true, false⟩
    let name : Field := ⟨"name", .named "String", false, false, false⟩
    let entity : Entity := ⟨⟨"db::Or"⟩, "Or", [id, name], [], none, none⟩
    let statement : Sql.WriteStatement :=
      ⟨"UPDATE Or SET name = ? WHERE id = ?", [name, id], false⟩
    entity.fields.filter (·.primaryKey) = [id] ∧ (entity.fields.map Field.column).Nodup ∧
      (∀ field ∈ entity.fields, Text.isIdentifierText field.column.toList = true) ∧
      Sql.IsPlainName entity.table ∧ entity.table ≠ "or" ∧
      Sql.WriteStatement.ofEntity .sqlite .update entity = .ok statement ∧
      Sql.mutatedTable? statement.sql = some "name" := by
  decide +kernel

end DaoGen.Emission
