import DaoGen.Proofs.Code.Name
import DaoGen.Proofs.Emission.Gaps
import DaoGen.Proofs.Emission.Methods
import DaoGen.Proofs.Pass

/-!
# References between units

A database unit refers to other units by paths from the module above: to the modules of the schema
of its target and dialect, and to the implementations of its DAOs. In a pass that succeeds, what
these paths name is in the outcome.
-/
namespace DaoGen

namespace Code

/-! ## Paths from the module above -/

/-- The names by which a path goes on. -/
def segmentsOf : List Token → List String
  | .punct ':' _ :: .punct ':' _ :: .ident name _ :: rest => name :: segmentsOf rest
  | _ => []

mutual

/-- The paths from the module above in a token. -/
def Token.parentPaths : Token → List (List String)
  | .group _ content => parentPathsOf content
  | _ => []

/-- The paths from the module above that stand in tokens, at any depth, by the names after their
first word. Paths that begin elsewhere do not count. -/
def parentPathsOf : List Token → List (List String)
  | [] => []
  | .punct ':' _ :: .punct ':' _ :: .ident _ _ :: rest => parentPathsOf rest
  | .ident "super" _ :: rest => segmentsOf rest :: parentPathsOf rest
  | t :: rest => t.parentPaths ++ parentPathsOf rest

end

section Tokens

variable (name : String) (line : Nat) (rest : List Token)

@[simp] theorem parentPathsOf_nil : parentPathsOf [] = [] := rfl

@[simp] theorem parentPathsOf_group (d : Delimiter) (content : List Token) :
    parentPathsOf (.group d content :: rest) = parentPathsOf content ++ parentPathsOf rest := rfl

@[simp] theorem parentPathsOf_literal (text : String) :
    parentPathsOf (.literal text :: rest) = parentPathsOf rest := rfl

@[simp] theorem parentPathsOf_lifetime :
    parentPathsOf (.lifetime name :: rest) = parentPathsOf rest := rfl

@[simp] theorem parentPathsOf_super :
    parentPathsOf (.ident "super" line :: rest) = segmentsOf rest :: parentPathsOf rest := rfl

@[simp] theorem parentPathsOf_ident {name : String} (h : name ≠ "super") :
    parentPathsOf (.ident name line :: rest) = parentPathsOf rest := by
  simp [parentPathsOf, Token.parentPaths, h]

@[simp] theorem parentPathsOf_punct {ch : Char} (h : ch ≠ ':') (joint : Bool) :
    parentPathsOf (.punct ch joint :: rest) = parentPathsOf rest := by
  simp [parentPathsOf, Token.parentPaths, h]

/-- A name in a path that has begun is passed over. -/
@[simp] theorem parentPathsOf_segment (joint joint' : Bool) :
    parentPathsOf (.punct ':' joint :: .punct ':' joint' :: .ident name line :: rest) =
      parentPathsOf rest := rfl

/-- A colon before a type begins no path. -/
@[simp] theorem parentPathsOf_colon_ident (joint : Bool) :
    parentPathsOf (.punct ':' joint :: .ident name line :: rest) =
      parentPathsOf (.ident name line :: rest) := rfl

@[simp] theorem parentPathsOf_colon_punct {ch : Char} (h : ch ≠ ':') (joint joint' : Bool) :
    parentPathsOf (.punct ':' joint :: .punct ch joint' :: rest) = parentPathsOf rest := by
  simp [parentPathsOf, Token.parentPaths, h]

@[simp] theorem parentPathsOf_colon_colons (joint joint' joint'' : Bool) :
    parentPathsOf (.punct ':' joint :: .punct ':' joint' :: .punct ':' joint'' :: rest) =
      parentPathsOf (.punct ':' joint' :: .punct ':' joint'' :: rest) := rfl

end Tokens

section Append

variable {mark : Char} (h : mark ≠ ':') (joint : Bool)

include h

/-- What begins like a path that goes on does so before a mark that is no colon. -/
theorem eq_colons_of_append {tokens rest more : List Token} {first second : Bool} {name : String}
    {line : Nat} (heq : tokens ++ .punct mark joint :: rest =
      .punct ':' first :: .punct ':' second :: .ident name line :: more) :
    ∃ more', tokens = .punct ':' first :: .punct ':' second :: .ident name line :: more' := by
  rcases tokens with _ | ⟨a, _ | ⟨b, _ | ⟨c, tokens⟩⟩⟩
  · simp [h] at heq
  · simp [h] at heq
  · simp at heq
  · obtain ⟨rfl, rfl, rfl, _⟩ := by simpa using heq
    exact ⟨tokens, rfl⟩

theorem segmentsOf_append (tokens rest : List Token) :
    segmentsOf (tokens ++ .punct mark joint :: rest) = segmentsOf tokens := by
  fun_induction segmentsOf tokens with
  | case1 _ _ name _ more ih => simp [segmentsOf, ih]
  | case2 tokens hstop =>
    rw [segmentsOf]
    intro first name second line more heq
    obtain ⟨more, rfl⟩ := eq_colons_of_append h joint heq
    exact hstop _ _ _ _ _ rfl

/-- No path goes on over a mark that is no colon, so the paths before and after it are all. -/
theorem parentPathsOf_append (tokens rest : List Token) :
    parentPathsOf (tokens ++ .punct mark joint :: rest) =
      parentPathsOf tokens ++ parentPathsOf rest := by
  -- for single tokens there is nothing to show
  induction tokens using parentPathsOf.induct (fun _ => True) with
  | case1 => trivial
  | case2 => trivial
  | case3 => simp [h]
  | case4 first second name line tokens ih => simpa using ih
  | case5 line tokens ih => simpa [segmentsOf_append h] using ih
  | case6 t tokens hcolons hsuper _ ih =>
    have happend : ∀ (first second : Bool) (name : String) (line : Nat) (more : List Token),
        t = .punct ':' first →
          tokens ++ .punct mark joint :: rest = .punct ':' second :: .ident name line :: more →
            False := by
      intro first second name line more ht heq
      have hcons : (t :: tokens) ++ .punct mark joint :: rest = _ := congrArg₂ List.cons ht heq
      obtain ⟨more, hmore⟩ := eq_colons_of_append h joint hcons
      obtain ⟨ht, htokens⟩ := List.cons.inj hmore
      exact hcolons _ _ _ _ _ ht htokens
    rw [List.cons_append, parentPathsOf.eq_4 _ _ happend hsuper, ih,
      parentPathsOf.eq_4 _ _ hcolons hsuper, List.append_assoc]

end Append

/-- Documentation refers to nothing. -/
@[simp] theorem parentPathsOf_docLine (text : String) (rest : List Token) :
    parentPathsOf (docLine text ++ rest) = parentPathsOf rest := by
  simp [docLine, outerAttribute, stringToken, words, op, operator, bracket]

@[simp] theorem parentPathsOf_fixedDocLine (text : String) (rest : List Token) :
    parentPathsOf (fixedDocLine text ++ rest) = parentPathsOf rest := by
  simp [fixedDocLine, outerAttribute, words, op, operator, bracket]

end Code

namespace Emission

open Code

/-! ## References of databases -/

@[simp] theorem parentPathsOf_generatedMark (rest : List Token) :
    parentPathsOf (generatedMark ++ rest) = parentPathsOf rest := by
  simp [generatedMark, outerAttribute, commas, path, words, op, operator, bracket, paren,
    List.intercalate]

/-- An import ends with a semicolon, so its paths end there. -/
theorem parentPathsOf_moduleImport {name : QualifiedName} {imports : List Token}
    (h : moduleImport name = .ok imports) (rest : List Token) :
    parentPathsOf (imports ++ rest) = parentPathsOf imports ++ parentPathsOf rest := by
  obtain ⟨before, rfl⟩ : ∃ before, imports = before ++ [.punct ';' false] := by
    unfold moduleImport at h
    split at h
    · cases h
      exact ⟨_, rfl⟩
    · cases h
  have hmark : ';' ≠ ':' := by decide
  rw [List.append_assoc, List.singleton_append, parentPathsOf_append hmark,
    parentPathsOf_append hmark, parentPathsOf_nil, List.append_nil]

/-- The paths to what creates a table, by the name of its schema module. -/
def tablePaths (table : String) : List (List String) :=
  [["schema", table, "CREATE_TABLE"], ["schema", table, "CREATE_INDICES"]]

/-- The paths to the implementation of a DAO and to its constructor. -/
def Accessor.paths (a : Accessor) : List (List String) :=
  [[a.module, a.type], [a.module, a.type, "new"]]

namespace DatabaseStruct

theorem parentPathsOf_tables (tables : List String) :
    parentPathsOf (Stmt.tokensList (tables.flatMap createTable)) = tables.flatMap tablePaths := by
  induction tables with
  | nil => simp [Stmt.tokensList]
  | cons table tables ih =>
    simp [createTable, execute, tablePaths, Stmt.tokensList, Stmt.tokens, Expr.tokens,
      Expr.tokensList, Expr.invoke, Expr.self, words, op, operator, paren, bracket, brace, commas,
      path, List.intercalate, segmentsOf, ih]

theorem parentPathsOf_accessors {accessors : List Accessor}
    (h : ∀ a ∈ accessors, a.name ≠ "super") :
    parentPathsOf (accessors.flatMap Accessor.tokens) = accessors.flatMap Accessor.paths := by
  induction accessors with
  | nil => simp
  | cons a accessors ih =>
    obtain ⟨hname, hrest⟩ := List.forall_mem_cons.mp h
    simp [Accessor.tokens, Accessor.paths, publicFn, arrow, reference, angled, member, Expr.tokens,
      Expr.self, words, op, operator, paren, brace, path, List.intercalate, segmentsOf, hname,
      ih hrest]

/-- Besides its imports, a database refers to the modules of its tables and to the implementations
that its accessors hand out, and to nothing else outside of its own module and the crates. -/
theorem parentPathsOf_tokens {ctx : Context} {d : DatabaseStruct} {database : Database}
    (himports : moduleImport database.name = .ok d.imports)
    (hconnection : d.connection = ctx.connection) (hname : d.name ≠ "super")
    (haccessors : ∀ a ∈ d.accessors, a.name ≠ "super") :
    parentPathsOf d.tokens = parentPathsOf d.imports ++ d.tables.flatMap tablePaths ++
      d.accessors.flatMap Accessor.paths := by
  unfold tokens
  simp only [List.append_assoc, parentPathsOf_moduleImport himports]
  simp [hconnection, Context.connection, Context.runtimePath, absolutePath, publicConst, publicFn,
    typed, arrow, reference, Expr.tokens, Expr.self, words, op, operator, paren, brace, path,
    List.intercalate, hname, parentPathsOf_tables, parentPathsOf_accessors haccessors]

/-- The parts of a database struct are those of its database. -/
theorem ofDatabase_ok {ctx : Context} {database : Database} {d : DatabaseStruct}
    (h : ofDatabase ctx database = .ok d) :
    d.connection = ctx.connection ∧ moduleImport database.name = .ok d.imports ∧
      joinedName database.name [ctx.target.suffix, ctx.dialect.suffix] = .ok d.name ∧
      List.Forall₂ (fun name table => tableOf ctx name = .ok table) database.entities d.tables ∧
      List.Forall₂ (fun dao a => Accessor.ofDao ctx dao = .ok a) database.daos d.accessors := by
  obtain ⟨name, hname, h⟩ := Except.bind_eq_ok.mp h
  obtain ⟨imports, himports, h⟩ := Except.bind_eq_ok.mp h
  obtain ⟨tables, htables, h⟩ := Except.bind_eq_ok.mp h
  obtain ⟨accessors, haccessors, h⟩ := Except.bind_eq_ok.mp h
  cases Except.pure_eq_ok.mp h
  exact ⟨rfl, himports, hname, Except.forall₂_of_mapM htables, Except.forall₂_of_mapM haccessors⟩

end DatabaseStruct

theorem Accessor.ofDao_ok {ctx : Context} {dao : QualifiedName} {a : Accessor}
    (h : ofDao ctx dao = .ok a) :
    identifier (Text.snakeCase dao.simple) = .ok a.name ∧
      identifier (UnitKind.daoImpl.module dao) = .ok a.module ∧
      DaoImpl.nameOf ctx dao = .ok a.type := by
  obtain ⟨name, hname, h⟩ := Except.bind_eq_ok.mp h
  obtain ⟨module, hmodule, h⟩ := Except.bind_eq_ok.mp h
  obtain ⟨type, htype, h⟩ := Except.bind_eq_ok.mp h
  cases Except.pure_eq_ok.mp h
  exact ⟨hname, hmodule, htype⟩

theorem ne_super_of_identifier {text name : String} (h : identifier text = .ok name) :
    name ≠ "super" := by
  rintro rfl
  exact notMem_reservedWords_of_parseName (identifier_eq_ok.mp h) (by decide)

/-! ## Schemas -/

/-- The module of an entity has the name that databases use for it. -/
theorem SchemaModule.ofEntity_ok {dialect : Dialect} {entity : Entity} {m : SchemaModule}
    (h : ofEntity dialect entity = .ok m) : nameOf entity = .ok m.name := by
  obtain ⟨name, hname, h⟩ := Except.bind_eq_ok.mp h
  split at h
  · cases h
  · cases Except.pure_eq_ok.mp h
    exact hname

namespace Schema

theorem modulesOf_ok {dialect : Dialect} {entities : List Entity} {modules : List SchemaModule}
    (h : modulesOf dialect entities = .ok modules) :
    List.Forall₂ (fun entity m => SchemaModule.ofEntity dialect entity = .ok m) entities
      modules := by
  induction entities generalizing modules with
  | nil =>
    cases h
    exact .nil
  | cons entity rest ih =>
    obtain ⟨m, hm, h⟩ := Except.bind_eq_ok.mp h
    obtain ⟨modules', hmodules, h⟩ := Except.bind_eq_ok.mp h
    cases Except.pure_eq_ok.mp h
    exact .cons (Except.mapError_eq_ok.mp hm) (ih hmodules)

/-- A schema has the module of every entity. -/
theorem exists_module {ctx : Context} {s : Schema} (h : ofContext ctx = .ok s) {entity : Entity}
    (hentity : entity ∈ ctx.model.entities) :
    ∃ m ∈ s.modules, SchemaModule.ofEntity ctx.dialect entity = .ok m := by
  obtain ⟨modules, hmodules, h⟩ := Except.bind_eq_ok.mp h
  cases Except.pure_eq_ok.mp h
  exact (modulesOf_ok hmodules).exists_right hentity

/-- Every module of a schema is declared in its code. -/
theorem infix_tokens {s : Schema} {m : SchemaModule} (h : m ∈ s.modules) :
    words ["pub", "mod", m.name] <:+: s.tokens := by
  have hmodule : words ["pub", "mod", m.name] <:+: m.tokens s.runtime :=
    ⟨docLine m.doc ++ generatedMark, _, rfl⟩
  have hmodules : m.tokens s.runtime <:+: s.modules.flatMap (SchemaModule.tokens s.runtime) :=
    List.infix_of_mem_flatten (List.mem_map_of_mem h)
  unfold tokens
  simp only [List.append_assoc]
  exact (hmodule.trans hmodules).trans (List.prefix_append _ _).isInfix

end Schema

/-- The struct of an implementation is declared in its code. -/
theorem DaoImpl.infix_tokens (d : DaoImpl) : words ["pub", "struct", d.name] <:+: d.tokens := by
  unfold tokens
  simp only [List.append_assoc]
  -- past the imports, the mark and the documentation
  iterate 3 refine List.IsInfix.trans ?_ (List.suffix_append _ _).isInfix
  exact (List.prefix_append _ _).isInfix

end Emission

/-! ## Resolution -/

open Emission Code

/-- A name is that of the module of an entity in the schema of a target and dialect. -/
def NamesTable (units : List SourceUnit) (model : Model) (target : Target) (dialect : Dialect)
    (name : QualifiedName) (table : String) : Prop :=
  ∃ entity ∈ model.entities, entity.name = name ∧
    ∃ u ∈ units, u.target = target ∧ u.dialect = some dialect ∧
      ∃ s, u.code = .schema s ∧ words ["pub", "mod", table] <:+: u.code.tokens ∧
        ∃ m ∈ s.modules, SchemaModule.ofEntity dialect entity = .ok m ∧ m.name = table

/-- An accessor has the module and the struct of the implementation of a DAO for a target and
dialect. The module is written as the name that its text is read as, which is the text itself if
that is an identifier. -/
def NamesImplementation (units : List SourceUnit) (target : Target) (dialect : Dialect)
    (dao : QualifiedName) (a : Accessor) : Prop :=
  ∃ u ∈ units, u.target = target ∧ u.dialect = some dialect ∧ u.subject = dao ∧
    u.code.kind = .daoImpl ∧ words ["pub", "struct", a.type] <:+: u.code.tokens ∧
    parseName u.id.module = some a.module ∧
    (Code.identifier u.id.module.toList = some (u.id.module.toList, []) → a.module = u.id.module)

/-- A database unit is the struct of a modeled database, made by the emitter of implementations. -/
theorem exists_attempt_of_database {options : Options} {emitters : List Emitter}
    {source : DeclarationSource} {u : SourceUnit}
    (hu : u ∈ (runPass options emitters source).units) {d : DatabaseStruct}
    (hcode : u.code = .database d) :
    ∃ dialect, ∃ database ∈ (Extraction.ofSource source).model.databases,
      u.dialect = some dialect ∧ u.subject = database.name ∧ u.target ∈ options.targets ∧
      (Emitter.implementation ∈ emitters ∧ u.target.runs Emitter.implementation.pass = true) ∧
      dialect ∈ Emitter.implementation.dialects u.target ∧
      DatabaseStruct.ofDatabase
          ⟨(Extraction.ofSource source).model, u.target, dialect, options.runtime⟩ database =
        .ok d := by
  obtain ⟨target, htarget, a, ha, hrun⟩ := exists_attempt_of_mem_units hu
  obtain ⟨hemitter, hsame, hdialect, hjob⟩ := TargetEmission.mem_attempts.mp ha
  obtain ⟨code, hcoderun, rfl⟩ := EmissionAttempt.run_eq_ok.mp hrun
  obtain ⟨emitter, _, dialect, job⟩ := a
  dsimp only at *
  subst hsame hcode
  have hkind := Job.kind_of_run hcoderun
  rcases Emitter.mem_jobs hjob with ⟨rfl, rfl⟩ | ⟨rfl, database, hmem, rfl⟩ | ⟨dao, _, rfl⟩
  · cases hkind
  · obtain ⟨d', hd, hsame⟩ := Except.map_eq_ok.mp hcoderun
    cases hsame
    exact ⟨dialect, database, hmem, rfl, rfl, htarget, hemitter, hdialect,
      Except.mapError_eq_ok.mp hd⟩
  · cases emitter <;> cases hkind

/-- There is a schema if there are entities. -/
theorem Emitter.schema_mem_jobs {model : Model} {entity : Entity} (h : entity ∈ model.entities) :
    Job.schema ∈ Emitter.implementation.jobs model := by
  have hnonempty : ¬ model.entities.isEmpty = true := by
    rw [List.isEmpty_iff]
    exact List.ne_nil_of_mem h
  refine List.mem_append_left _ (List.mem_append_left _ ?_)
  rw [if_neg hnonempty]
  exact List.mem_singleton_self _

section Success

variable {options : Options} {emitters : List Emitter} {source : DeclarationSource}
  (hsuccess : (runPass options emitters source).isSuccess = true) {target : Target}
  (htarget : target ∈ options.targets)
  (hemitter : Emitter.implementation ∈ emitters ∧ target.runs Emitter.implementation.pass = true)
  {dialect : Dialect} (hdialect : dialect ∈ Emitter.implementation.dialects target)

include hsuccess htarget hemitter hdialect

/-- A pass that succeeds has the units of all jobs of implementations. -/
theorem exists_unit_of_job {job : Job}
    (hjob : job ∈ Emitter.implementation.jobs (Extraction.ofSource source).model) :
    ∃ code, job.run ⟨(Extraction.ofSource source).model, target, dialect, options.runtime⟩ =
        .ok code ∧
      ⟨target, some dialect, job.subject, code⟩ ∈ (runPass options emitters source).units := by
  obtain ⟨u, hu, hrun⟩ := exists_unit_of_isSuccess hsuccess htarget
    (TargetEmission.mem_attempts.mpr ⟨hemitter, rfl, hdialect, hjob⟩ :
      ⟨.implementation, target, dialect, job⟩ ∈ _)
  obtain ⟨code, hcode, rfl⟩ := EmissionAttempt.run_eq_ok.mp hrun
  exact ⟨code, hcode, hu⟩

/-- The tables of a database are modules of the schema. -/
theorem namesTable_of_tableOf {database : Database}
    (hdatabase : database ∈ (Extraction.ofSource source).model.databases) {name : QualifiedName}
    (hname : name ∈ database.entities) {table : String}
    (htable : DatabaseStruct.tableOf
      ⟨(Extraction.ofSource source).model, target, dialect, options.runtime⟩ name = .ok table) :
    NamesTable (runPass options emitters source).units (Extraction.ofSource source).model target
      dialect name table := by
  let ctx : Context := ⟨(Extraction.ofSource source).model, target, dialect, options.runtime⟩
  have hclosed : ctx.model.Closed := Model.Closed.ofSource source
  obtain ⟨entity, hentity, hsame, htableOf⟩ := hclosed.tableOf_eq hdatabase hname
  have hjob := Emitter.schema_mem_jobs hentity
  obtain ⟨code, hcode, hunit⟩ := exists_unit_of_job hsuccess htarget hemitter hdialect hjob
  obtain ⟨s, hs, rfl⟩ := Except.map_eq_ok.mp hcode
  obtain ⟨m, hm, hmodule⟩ := Schema.exists_module hs hentity
  have hmname : m.name = table := by
    have hnames := (SchemaModule.ofEntity_ok hmodule).symm.trans (htableOf.symm.trans htable)
    exact Except.ok.inj hnames
  exact ⟨entity, hentity, hsame, _, hunit, rfl, rfl, s, rfl,
    hmname ▸ Schema.infix_tokens hm, m, hm, hmodule, hmname⟩

/-- The accessors of a database hand out implementations. -/
theorem namesImplementation_of_accessor {database : Database}
    (hdatabase : database ∈ (Extraction.ofSource source).model.databases) {name : QualifiedName}
    (hname : name ∈ database.daos) {a : Accessor}
    (haccessor : Accessor.ofDao
      ⟨(Extraction.ofSource source).model, target, dialect, options.runtime⟩ name = .ok a) :
    NamesImplementation (runPass options emitters source).units target dialect name a := by
  have hclosed := Model.Closed.ofSource source
  obtain ⟨dao, hdao, rfl⟩ := (hclosed.databases database hdatabase).daos_modeled name hname
  have hjob : Job.daoImpl dao ∈ Emitter.implementation.jobs (Extraction.ofSource source).model :=
    List.mem_append_right _ (List.mem_map_of_mem hdao)
  obtain ⟨code, hcode, hunit⟩ := exists_unit_of_job hsuccess htarget hemitter hdialect hjob
  obtain ⟨impl, himpl, rfl⟩ := Except.map_eq_ok.mp hcode
  obtain ⟨_, hmodule, htype⟩ := Accessor.ofDao_ok haccessor
  have hstruct : impl.name = a.type :=
    Except.ok.inj ((DaoImpl.ofDao_ok (Except.mapError_eq_ok.mp himpl)).1.symm.trans htype)
  have hread := identifier_eq_ok.mp hmodule
  exact ⟨_, hunit, rfl, rfl, rfl, rfl, hstruct ▸ impl.infix_tokens, hread,
    fun hidentifier => eq_of_parseName hidentifier hread⟩

end Success

/-- In a pass that succeeds, a database unit refers, besides the import of its own module, to
nothing but the schema modules of its entities and the implementations of its DAOs, and these are in
the outcome for the same target and dialect. -/
theorem runPass_references {options : Options} {emitters : List Emitter}
    {source : DeclarationSource} (hsuccess : (runPass options emitters source).isSuccess = true)
    {u : SourceUnit} (hu : u ∈ (runPass options emitters source).units) {d : DatabaseStruct}
    (hcode : u.code = .database d) :
    let units := (runPass options emitters source).units
    let model := (Extraction.ofSource source).model
    ∃ dialect, ∃ database ∈ model.databases, u.dialect = some dialect ∧
      u.subject = database.name ∧ moduleImport database.name = .ok d.imports ∧
      parentPathsOf u.code.tokens = parentPathsOf d.imports ++ d.tables.flatMap tablePaths ++
        d.accessors.flatMap Accessor.paths ∧
      List.Forall₂ (NamesTable units model u.target dialect) database.entities d.tables ∧
      List.Forall₂ (NamesImplementation units u.target dialect) database.daos d.accessors := by
  intro units model
  obtain ⟨dialect, database, hdatabase, hdialect, hsubject, htarget, hemitter, hruns, hd⟩ :=
    exists_attempt_of_database hu hcode
  obtain ⟨hconnection, himports, hname, htables, haccessors⟩ := DatabaseStruct.ofDatabase_ok hd
  refine ⟨dialect, database, hdatabase, hdialect, hsubject, himports, ?_, ?_, ?_⟩
  · rw [hcode]
    refine DatabaseStruct.parentPathsOf_tokens himports hconnection
      (ne_super_of_identifier hname) ?_
    intro a ha
    obtain ⟨dao, _, haccessor⟩ := haccessors.exists_left ha
    exact ne_super_of_identifier (Accessor.ofDao_ok haccessor).1
  · have hlisted := (List.forall₂_and_left _ _).mpr ⟨fun _ h => h, htables⟩
    exact hlisted.imp fun name table ⟨hmem, htable⟩ =>
      namesTable_of_tableOf hsuccess htarget hemitter hruns hdatabase hmem htable
  · have hlisted := (List.forall₂_and_left _ _).mpr ⟨fun _ h => h, haccessors⟩
    exact hlisted.imp fun name a ⟨hmem, haccessor⟩ =>
      namesImplementation_of_accessor hsuccess htarget hemitter hruns hdatabase hmem haccessor

/-- A source of an entity, a DAO of the given name and a database of both. -/
def tagSource (dao : String) : DeclarationSource where
  declarations := [⟨0, .entity, ⟨"db::Tag"⟩, [.entity none], none⟩,
    ⟨1, .dao, ⟨"db::" ++ dao⟩, [.dao], none⟩,
    ⟨2, .database, ⟨"db::AppDb"⟩,
      [.database { version := 1, entities := ["Tag"], daos := [dao] }], none⟩]
  members d := .ok (if d.id = 0 then [⟨0, 0, "id", .field (.named "i64"), none⟩] else [])
  annotationsOf _ := [.primaryKey false]

/-- The database of an entity and a DAO hands out the implementation of the DAO. -/
theorem runPass_references_tag :
    let outcome := runPass { targets := [.mobile] } Emitter.all (tagSource "TagDao")
    outcome.isSuccess = true ∧ ∃ u ∈ outcome.units, ∃ d, u.code = .database d ∧
      d.accessors ≠ [] ∧ ∃ dialect, ∃ daos,
        List.Forall₂ (NamesImplementation outcome.units u.target dialect) daos d.accessors := by
  intro outcome
  have hcheck : (outcome.isSuccess && outcome.units.any fun u =>
      match u.code with
      | .database d => !d.accessors.isEmpty
      | _ => false) = true := by
    decide +kernel
  obtain ⟨hsuccess, hany⟩ := Bool.and_eq_true_iff.mp hcheck
  obtain ⟨u, hu, hdatabase⟩ := List.any_eq_true.mp hany
  split at hdatabase
  · next d hcode =>
    obtain ⟨dialect, database, _, _, _, _, _, _, hdaos⟩ := runPass_references hsuccess hu hcode
    exact ⟨hsuccess, u, hu, d, hcode, by simpa using hdatabase, dialect, database.daos, hdaos⟩
  · cases hdatabase

/-- A name with a blank in front is read as the name without it, so a database can name a module
that no unit has. -/
theorem runPass_references_blank :
    let outcome := runPass { targets := [.mobile] } Emitter.all (tagSource "\tTagDao")
    outcome.isSuccess = true ∧
      ∃ u ∈ outcome.units, ∃ d, u.code = .database d ∧ ∃ a ∈ d.accessors,
        ∀ v ∈ outcome.units, v.id.module ≠ a.module := by
  intro outcome
  have hcheck : (outcome.isSuccess && outcome.units.any fun u =>
      match u.code with
      | .database d => d.accessors.any fun a => outcome.units.all fun v => v.id.module != a.module
      | _ => false) = true := by
    decide +kernel
  obtain ⟨hsuccess, hany⟩ := Bool.and_eq_true_iff.mp hcheck
  obtain ⟨u, hu, hdatabase⟩ := List.any_eq_true.mp hany
  split at hdatabase
  · next d hcode =>
    obtain ⟨a, ha, hall⟩ := List.any_eq_true.mp hdatabase
    exact ⟨hsuccess, u, hu, d, hcode, a, ha, fun v hv => by
      simpa using List.all_eq_true.mp hall v hv⟩
  · cases hdatabase

end DaoGen
