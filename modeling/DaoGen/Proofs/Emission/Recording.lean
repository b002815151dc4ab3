import DaoGen.Proofs.Emission.Methods

/-!
# What wrappers record

The methods of a replication wrapper are those of the generated operations, in order. Whether a
query is recorded, and as what, is read off the neutral query alone, while implementations run the
query of their dialect.
-/
namespace DaoGen.Emission

open Code

theorem RecordOperation.name_injective : Function.Injective name := by
  intro operation operation' h
  cases operation <;> cases operation' <;> first | rfl | exact absurd h (by decide)

/-- It is known what a statement does to rows just if it writes rows. -/
theorem RecordOperation.isSome_ofQuery? (sql : String) :
    (ofQuery? sql).isSome = Sql.isMutation sql := by
  unfold ofQuery? Sql.isMutation
  cases Sql.verbOf sql <;> rfl

namespace Recording

/-- The record of a statement. -/
def ofStatement (table : String) (operation : RecordOperation) : Recording :=
  { table, operation, attachment := none, source := .statement }

theorem ofQuery_ok {op : Operation} {query : Query} {recording : Recording}
    (h : ofQuery op query = .ok recording) :
    ∃ table operation, Sql.mutatedTable? query.sql = some table ∧
      RecordOperation.ofQuery? query.sql = some operation ∧
      recording = ofStatement table operation := by
  unfold ofQuery at h
  split at h
  · cases h
  · next operation hoperation =>
    split at h
    · cases h
    · next table htable =>
      cases h
      exact ⟨table, operation, htable, hoperation, rfl⟩

/-- A query is recorded if its neutral text writes rows. -/
theorem ofOperation?_query {ctx : Context} {op : Operation} {query : Query}
    (hkind : op.kind = .query query) {recording? : Option Recording}
    (h : ofOperation? ctx op = .ok recording?) :
    (Sql.isMutation query.sql = false ∧ recording? = none) ∨
      ∃ table operation, Sql.mutatedTable? query.sql = some table ∧
        RecordOperation.ofQuery? query.sql = some operation ∧
        recording? = some (ofStatement table operation) := by
  have hmutating : op.isMutating = Sql.isMutation query.sql := by rw [Operation.isMutating, hkind]
  unfold ofOperation? at h
  rw [hmutating, hkind] at h
  split at h
  · next hnot =>
    cases h
    exact .inl ⟨by simpa using hnot, rfl⟩
  · obtain ⟨recording, hrecording, h⟩ := Except.bind_eq_ok.mp h
    cases Except.pure_eq_ok.mp h
    obtain ⟨table, operation, htable, hoperation, rfl⟩ := ofQuery_ok hrecording
    exact .inr ⟨table, operation, htable, hoperation, rfl⟩

end Recording

namespace Replication

/-! ## Methods -/

/-- The method of a query in a wrapper. -/
theorem exists_method {ctx : Context} {dao : Dao} {r : Replication} (h : ofDao ctx dao = .ok r)
    {op : Operation} (hop : op ∈ dao.operations) (hgenerated : op.isGenerated = true) :
    ∃ m ∈ r.methods, method? ctx op = .ok (some m) :=
  (ofDao_ok h).2.exists_right (List.mem_filter.mpr ⟨hop, hgenerated⟩)

/-! ## Records -/

/-- A method records what a statement does to which table. -/
def Records (ctx : Context) (op : Operation) (m : Method) (sql : String) : Prop :=
  ∃ table operation, Sql.mutatedTable? sql = some table ∧
    RecordOperation.ofQuery? sql = some operation ∧
    m.body = recordingBody ctx op m.header (.ofStatement table operation)

/-- A method does nothing but call the wrapped implementation. -/
def PassesThrough (op : Operation) (m : Method) : Prop :=
  m.body = { result := some (innerCall op m.header) }

/-- The method of a query records its neutral text if that writes rows, and else passes through. -/
theorem method_of_query {ctx : Context} {op : Operation} {query : Query}
    (hkind : op.kind = .query query) {m : Method} (h : method? ctx op = .ok (some m)) :
    (Sql.isMutation query.sql = false ∧ PassesThrough op m) ∨
      (Sql.isMutation query.sql = true ∧ Records ctx op m query.sql) := by
  rcases method?_ok h with ⟨_, hnone⟩ | ⟨_, recording?, hsome, _, _, hrecording, hbody⟩
  · cases hnone
  · cases hsome
    rcases Recording.ofOperation?_query hkind hrecording with
      ⟨hnot, rfl⟩ | ⟨table, operation, htable, hoperation, rfl⟩
    · exact .inl ⟨hnot, hbody⟩
    · refine .inr ⟨?_, table, operation, htable, hoperation, hbody⟩
      rw [← RecordOperation.isSome_ofQuery?, hoperation, Option.isSome_some]

theorem not_records_of_passesThrough {ctx : Context} {op : Operation} {m : Method} {sql : String}
    (h : PassesThrough op m) : ¬ Records ctx op m sql := by
  rintro ⟨table, operation, _, _, hbody⟩
  have hstmts := congrArg Body.stmts (h.symm.trans hbody)
  unfold recordingBody at hstmts
  split at hstmts <;> cases hstmts

/-- The first statement of a recording method binds the records. -/
theorem head?_recordingBody (ctx : Context) (op : Operation) (header : MethodHeader)
    (recording : Recording) :
    (recordingBody ctx op header recording).stmts.head? = some (bindRecords ctx recording) := by
  unfold recordingBody
  split <;> rfl

theorem bindRecords_inj {ctx : Context} {table table' : String}
    {operation operation' : RecordOperation}
    (h : bindRecords ctx (.ofStatement table operation) =
      bindRecords ctx (.ofStatement table' operation')) :
    table = table' ∧ operation = operation' := by
  simp only [bindRecords, Recording.expr, Recording.single, Recording.recordExpr,
    Recording.ofStatement, Stmt.bind.injEq, Expr.macroCall.injEq, Expr.call.injEq, Expr.text.injEq,
    Expr.path.injEq, List.cons.injEq, and_true, true_and] at h
  obtain ⟨htable, hpath⟩ := h
  refine ⟨htable, RecordOperation.name_injective ?_⟩
  simpa [Recording.runtimePath, Context.runtimePath, absolutePath, path, words] using hpath

theorem Records.unique {ctx : Context} {op : Operation} {m : Method} {sql sql' : String}
    (h : Records ctx op m sql) (h' : Records ctx op m sql') :
    Sql.mutatedTable? sql = Sql.mutatedTable? sql' ∧
      RecordOperation.ofQuery? sql = RecordOperation.ofQuery? sql' := by
  obtain ⟨table, operation, htable, hoperation, hbody⟩ := h
  obtain ⟨table', operation', htable', hoperation', hbody'⟩ := h'
  have hhead := congrArg (fun body => body.stmts.head?) (hbody.symm.trans hbody')
  simp only [head?_recordingBody, Option.some.injEq] at hhead
  obtain ⟨rfl, rfl⟩ := bindRecords_inj hhead
  exact ⟨htable.trans htable'.symm, hoperation.trans hoperation'.symm⟩

/-- A wrapper records a query as what a dialect runs, if that writes rows, just if the statement of
the dialect does the same to the same table as the neutral one. -/
theorem records_dialect_iff {ctx : Context} {dao : Dao} {op : Operation}
    (hop : op ∈ dao.operations) {query : Query} (hkind : op.kind = .query query) {dialect : Dialect}
    (hmutation : Sql.isMutation (query.sqlFor dialect) = true) :
    (∀ r, ofDao ctx dao = .ok r → ∃ m ∈ r.methods, method? ctx op = .ok (some m) ∧
        Records ctx op m (query.sqlFor dialect)) ↔
      (∃ cause, ofDao ctx dao = .error cause) ∨
        (Sql.mutatedTable? (query.sqlFor dialect) = Sql.mutatedTable? query.sql ∧
          RecordOperation.ofQuery? (query.sqlFor dialect) =
            RecordOperation.ofQuery? query.sql) := by
  have hgenerated : op.isGenerated = true := by rw [Operation.isGenerated, hkind]
  constructor
  · intro hrecords
    cases hdao : ofDao ctx dao with
    | error cause => exact .inl ⟨cause, rfl⟩
    | ok r =>
      obtain ⟨m, _, hm, hrecord⟩ := hrecords r hdao
      rcases method_of_query hkind hm with ⟨_, hpass⟩ | ⟨_, hneutral⟩
      · exact absurd hrecord (not_records_of_passesThrough hpass)
      · exact .inr (hrecord.unique hneutral)
  · rintro (⟨cause, herror⟩ | ⟨htable, hoperation⟩) r hdao
    · cases herror.symm.trans hdao
    · obtain ⟨m, hmem, hm⟩ := exists_method hdao hop hgenerated
      refine ⟨m, hmem, hm, ?_⟩
      rcases method_of_query hkind hm with ⟨hnot, _⟩ | ⟨_, table, operation, ht, ho, hbody⟩
      · rw [← RecordOperation.isSome_ofQuery?, ← hoperation,
          RecordOperation.isSome_ofQuery?, hmutation] at hnot
        cases hnot
      · exact ⟨table, operation, htable.trans ht, hoperation.trans ho, hbody⟩

/-- An override that writes the rows of the neutral query with other words is recorded. -/
theorem records_insert_override :
    let ctx : Context := ⟨{}, .mobile, .sqlite, "replikit"⟩
    let query : Query :=
      ⟨"INSERT INTO tag (id) VALUES (:id)",
        [(.sqlite, "INSERT OR IGNORE INTO tag (id) VALUES (:id)")]⟩
    let op : Operation := { name := "add", suspension := .async, kind := .query query }
    let dao : Dao := { name := ⟨"db::TagDao"⟩, operations := [op] }
    op ∈ dao.operations ∧ Sql.isMutation (query.sqlFor .sqlite) = true ∧
      ∀ r, ofDao ctx dao = .ok r → ∃ m ∈ r.methods, method? ctx op = .ok (some m) ∧
        Records ctx op m (query.sqlFor .sqlite) := by
  intro ctx query op dao
  have hop : op ∈ dao.operations := List.mem_singleton_self op
  have hmutation : Sql.isMutation (query.sqlFor .sqlite) = true := by decide +kernel
  refine ⟨hop, hmutation, (records_dialect_iff hop rfl hmutation).mpr (.inr ⟨?_, ?_⟩)⟩
  · decide +kernel
  · decide +kernel

/-- A query that writes rows on one dialect only is not recorded on any. -/
theorem passesThrough_delete_override :
    let ctx : Context := ⟨{}, .jvm, .sqlite, "replikit"⟩
    let query : Query := ⟨"SELECT 1", [(.postgres, "DELETE FROM tag")]⟩
    let op : Operation := { name := "purge", suspension := .async, kind := .query query }
    let dao : Dao := { name := ⟨"db::TagDao"⟩, operations := [op] }
    .postgres ∈ ctx.target.dialects ∧ Sql.isMutation (query.sqlFor .postgres) = true ∧
      ∃ r, ofDao ctx dao = .ok r ∧ ∃ m ∈ r.methods, method? ctx op = .ok (some m) ∧
        PassesThrough op m ∧ ¬ Records ctx op m (query.sqlFor .postgres) := by
  intro ctx query op dao
  have hdao : (ofDao ctx dao).toOption.any (fun _ => true) = true := by decide +kernel
  obtain ⟨r, hr, _⟩ := Except.exists_of_any hdao
  obtain ⟨m, hmem, hm⟩ := exists_method hr (List.mem_singleton_self op) rfl
  have hneutral : Sql.isMutation query.sql = false := by decide +kernel
  rcases method_of_query rfl hm with ⟨_, hpass⟩ | ⟨hmutation, _⟩
  · exact ⟨by decide, by decide +kernel, r, hr, m, hmem, hm, hpass,
      not_records_of_passesThrough hpass⟩
  · cases hneutral.symm.trans hmutation

end Replication

end DaoGen.Emission
