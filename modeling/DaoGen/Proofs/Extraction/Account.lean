import DaoGen.Proofs.Extraction.Run

/-!
# Accounts of declarations

Every declaration of a source ends in one place: it is modeled, put off or refused. Its account says
where, and what is reported on the way. Models, declarations put off, errors and diagnostics of a
source are read off the accounts of its entities, its DAOs and its databases, in order.

## Main definitions

* `Fate`, `Account`: where a declaration ends, and what is reported about it.
* `Accounts`: an account for each of the given declarations, in their own name.

## Main results

* `Extraction.foldl_enter`: what a run collects, by induction over its accounts.
* `Extraction.filter_diagnostics_ofSource`: the errors that are reported are those that are kept.
* `Extraction.ofSource_accounts`: the accounts of a source.
-/
namespace DaoGen

/-- Where a declaration ends. -/
inductive Fate (M : Type) where
  | modeled (m : M)
  | deferred
  | refused (error : MalformedDeclaration)

/-- What becomes of a declaration, with the warnings about it. -/
structure Account (M : Type) where
  declaration : Declaration
  fate : Fate M
  warnings : List Diagnostic

namespace Account

variable {M : Type}

/-- What an attempt to model a declaration leads to. -/
def ofAttempt (d : Declaration) (attempt : Attempt M) : Account M where
  declaration := d
  fate :=
    match attempt.outcome with
    | .ok m => .modeled m
    | .error (.unresolved _) => .deferred
    | .error (.malformed error) => .refused error
  warnings := attempt.warnings

def model? (a : Account M) : Option M :=
  match a.fate with
  | .modeled m => some m
  | .deferred | .refused _ => none

def deferred? (a : Account M) : Option Declaration :=
  match a.fate with
  | .deferred => some a.declaration
  | .modeled _ | .refused _ => none

def error? (a : Account M) : Option MalformedDeclaration :=
  match a.fate with
  | .refused error => some error
  | .modeled _ | .deferred => none

/-- Everything that is reported about the declaration: the warnings, and the error if it is
refused. -/
def diagnostics (a : Account M) : List Diagnostic :=
  a.warnings ++ (a.error?.map MalformedDeclaration.diagnostic).toList

/-- An account speaks of its own declaration: the model or the error has its name. Nothing is
reported of a declaration that is put off, and warnings are no errors. -/
structure IsOwn (nameOf : M → QualifiedName) (a : Account M) : Prop where
  model_name : ∀ m, a.fate = .modeled m → nameOf m = a.declaration.name
  error_name : ∀ error, a.fate = .refused error → error.declaration = a.declaration.name
  silent : a.fate = .deferred → a.diagnostics = []
  warnings : ∀ w ∈ a.warnings, w.isError = false

/-- The error of an account is the only one that it reports. -/
theorem IsOwn.filter_diagnostics {nameOf : M → QualifiedName} {a : Account M}
    (h : a.IsOwn nameOf) :
    a.diagnostics.filter Diagnostic.isError =
      (a.error?.map MalformedDeclaration.diagnostic).toList := by
  have hwarnings : a.warnings.filter Diagnostic.isError = [] := by
    simpa [List.filter_eq_nil_iff] using h.warnings
  rw [diagnostics, List.filter_append, hwarnings, List.nil_append]
  cases a.error? with
  | none => rfl
  | some error => rfl

end Account

/-- An account for each of the declarations, in order. -/
structure Accounts {M : Type} (nameOf : M → QualifiedName) (ds : List Declaration)
    (as : List (Account M)) : Prop where
  declarations : as.map (·.declaration) = ds
  own : ∀ a ∈ as, a.IsOwn nameOf

/-! ## Warnings and rejections -/

/-- A rejection that names the declaration it is about. What has to wait is known by its place. -/
def Rejection.Names (name : QualifiedName) : Rejection → Prop
  | .malformed error => error.declaration = name
  | .unresolved _ => True

namespace Account

variable {M : Type} {nameOf : M → QualifiedName} {d : Declaration}

theorem isOwn_ofAttempt {attempt : Attempt M}
    (hname : ∀ m, attempt.outcome = .ok m → nameOf m = d.name)
    (herror : attempt.outcome.FailsOnly (Rejection.Names d.name))
    (hsilent : ∀ reference, attempt.outcome = .error (.unresolved reference) →
      attempt.warnings = [])
    (hwarnings : ∀ w ∈ attempt.warnings, w.isError = false) :
    (ofAttempt d attempt).IsOwn nameOf := by
  obtain ⟨warnings, outcome⟩ := attempt
  rcases outcome with (error | reference) | m
  case error.malformed => exact {
    model_name _ h := by cases h
    error_name _ h := Fate.refused.inj h ▸ herror _ rfl
    silent h := by cases h
    warnings := hwarnings }
  case error.unresolved => exact {
    model_name _ h := by cases h
    error_name _ h := by cases h
    silent _ := by
      simpa [diagnostics, error?, ofAttempt] using hsilent reference rfl
    warnings := hwarnings }
  case ok => exact {
    model_name _ h := Fate.modeled.inj h ▸ hname m rfl
    error_name _ h := by cases h
    silent h := by cases h
    warnings := hwarnings }

/-- The model of an account is that of the attempt. -/
theorem model?_ofAttempt {attempt : Attempt M} {m : M} :
    (ofAttempt d attempt).model? = some m ↔ attempt.outcome = .ok m := by
  obtain ⟨warnings, outcome⟩ := attempt
  rcases outcome with (error | reference) | m <;> simp [ofAttempt, model?]

/-- An attempt without warnings. -/
theorem isOwn_of_outcome {outcome : Except Rejection M}
    (hname : ∀ m, outcome = .ok m → nameOf m = d.name)
    (herror : outcome.FailsOnly (Rejection.Names d.name)) :
    (ofAttempt d { outcome }).IsOwn nameOf :=
  isOwn_ofAttempt hname herror (fun _ _ => rfl) nofun

/-- A model whose name is taken is refused in its own name. -/
theorem IsOwn.claim {attempt : Attempt M} (h : (ofAttempt d attempt).IsOwn nameOf)
    (taken : List QualifiedName) :
    (ofAttempt d { attempt with
      outcome := attempt.outcome.bind (Extraction.claimName d taken) }).IsOwn nameOf := by
  obtain ⟨warnings, outcome⟩ := attempt
  cases outcome with
  | error rejection => exact h
  | ok m =>
    dsimp only [Except.bind, Extraction.claimName]
    split
    · exact {
        model_name _ hfate := by cases hfate
        error_name _ hfate := Fate.refused.inj hfate ▸ rfl
        silent hfate := by cases hfate
        warnings := h.warnings }
    · exact h

end Account

namespace Attachment

theorem isError_of_mem_repeatWarnings {entity : QualifiedName} {location : Option Location}
    {seen held : List (AttachmentRole × Field)} :
    ∀ w ∈ repeatWarnings entity location seen held, w.isError = false := by
  induction held generalizing seen with
  | nil => exact nofun
  | cons head rest ih =>
    obtain ⟨role, field⟩ := head
    intro w hw
    unfold repeatWarnings at hw
    split at hw
    · rcases List.mem_cons.mp hw with rfl | hw
      · rfl
      · exact ih w hw
    · exact ih w hw

theorem isError_of_mem_warnings {entity : QualifiedName} {location : Option Location}
    {declared : Bool} {fields : List Field} {roles : List (AttachmentRole × Nat)} :
    ∀ w ∈ warnings entity location declared fields roles, w.isError = false := by
  intro w hw
  unfold warnings at hw
  split at hw
  · exact isError_of_mem_repeatWarnings w hw
  · split at hw
    · cases hw
    · cases List.mem_singleton.mp hw
      rfl

end Attachment

namespace Entity

/-- An attempt fails without a warning, or comes as far as the attachment, with its warnings. -/
theorem ofDeclaration_cases (source : DeclarationSource) (d : Declaration) :
    (∃ rejection : Rejection, rejection.Names d.name ∧
        ofDeclaration source d = { outcome := .error rejection }) ∨
      ∃ fields roles, ofDeclaration source d = {
        warnings := Attachment.warnings d.name d.location (declaresAttachment d) fields roles
        outcome := (ofFields d fields roles).mapError d.malformed } := by
  unfold ofDeclaration
  split
  · exact .inl ⟨d.malformed _, rfl, rfl⟩
  · split
    · exact .inl ⟨.unresolved _, trivial, rfl⟩
    · split
      · exact .inl ⟨d.malformed _, rfl, rfl⟩
      · exact .inr ⟨_, _, rfl⟩

theorem isOwn_ofDeclaration (source : DeclarationSource) (d : Declaration) :
    (Account.ofAttempt d (ofDeclaration source d)).IsOwn Entity.name := by
  refine Account.isOwn_ofAttempt (fun _ h => (ofDeclaration_ok h).1) ?_ ?_ ?_ <;>
    rcases ofDeclaration_cases source d with ⟨rejection, hnames, heq⟩ | ⟨fields, roles, heq⟩ <;>
    rw [heq]
  · exact .error hnames
  · exact .of_mapError fun _ => rfl
  · exact fun _ _ => rfl
  · intro reference h
    obtain ⟨fault, _, hfault⟩ := Except.mapError_eq_error.mp h
    cases hfault
  · exact nofun
  · exact Attachment.isError_of_mem_warnings

end Entity

theorem Dao.names_ofDeclaration (source : DeclarationSource) (scope : Scope) (d : Declaration) :
    (Dao.ofDeclaration source scope d).FailsOnly (Rejection.Names d.name) := by
  unfold Dao.ofDeclaration
  split
  · exact .error rfl
  · refine (Except.FailsOnly.of_mapError fun _ => trivial).bind fun members => ?_
    refine Except.FailsOnly.bind (.mapM fun member _ => .of_mapError fun rejection => ?_)
      fun _ => .pure _
    cases rejection with
    | fault fault => exact rfl
    | unresolved name => exact trivial

theorem Dao.isOwn_ofDeclaration (source : DeclarationSource) (scope : Scope) (d : Declaration) :
    (Account.ofAttempt d { outcome := ofDeclaration source scope d }).IsOwn Dao.name :=
  Account.isOwn_of_outcome (fun _ h => (ofDeclaration_ok h).1) (names_ofDeclaration source scope d)

namespace Database

theorem names_resolveAll (d : Declaration) (kind : DeclarationKind) (resolve : String → Resolution)
    (found : List QualifiedName) (written : List String) :
    (resolveAll d kind resolve found written).FailsOnly (Rejection.Names d.name) := by
  induction written generalizing found with
  | nil => exact .ok found
  | cons w rest ih =>
    unfold resolveAll
    split
    · exact .error trivial
    · exact .error rfl
    · exact .error rfl
    · split
      · exact .error rfl
      · exact ih _

theorem names_ofDeclaration (scope : Scope) (d : Declaration) :
    (ofDeclaration scope d).FailsOnly (Rejection.Names d.name) := by
  unfold ofDeclaration
  split
  · exact .error rfl
  · split
    · exact .error rfl
    · split
      · exact .error rfl
      · refine (names_resolveAll d _ _ _ _).bind fun entities => ?_
        exact (names_resolveAll d _ _ _ _).bind fun daos => .pure _

theorem isOwn_ofDeclaration (scope : Scope) (d : Declaration) :
    (Account.ofAttempt d { outcome := ofDeclaration scope d }).IsOwn Database.name :=
  Account.isOwn_of_outcome (fun _ h => (ofDeclaration_ok h).1) (names_ofDeclaration scope d)

end Database

namespace Extraction

/-! ## Steps -/

/-- Enters an account. -/
def enter {M : Type} (add : Model → M → Model) (e : Extraction) (a : Account M) : Extraction where
  model := a.model?.elim e.model (add e.model)
  deferred := e.deferred ++ a.deferred?.toList
  errors := e.errors ++ a.error?.toList
  diagnostics := e.diagnostics ++ a.diagnostics

theorem settle_eq_enter {M : Type} (add : Model → M → Model) (e : Extraction) (d : Declaration)
    (attempt : Attempt M) : e.settle add d attempt = e.enter add (.ofAttempt d attempt) := by
  obtain ⟨warnings, outcome⟩ := attempt
  rcases outcome with (error | reference) | m <;>
    simp [settle, enter, Account.ofAttempt, Account.model?, Account.deferred?, Account.error?,
      Account.diagnostics]

/-- What is accepted under a free name was accepted before. -/
theorem ok_of_claimed {M : Type} {outcome : Except Rejection M} {d : Declaration}
    {taken : List QualifiedName} {m : M} (h : outcome.bind (claimName d taken) = .ok m) :
    outcome = .ok m := by
  obtain ⟨m', hm', hclaim⟩ := Except.bind_eq_ok.mp h
  exact (claimName_ok hclaim).1 ▸ hm'

theorem enter_takeEntity (source : DeclarationSource) (e : Extraction) (d : Declaration) :
    ∃ a : Account Entity, a.declaration = d ∧ a.IsOwn Entity.name ∧
      takeEntity source e d = e.enter addEntity a :=
  ⟨_, rfl, (Entity.isOwn_ofDeclaration source d).claim _, settle_eq_enter addEntity e d _⟩

theorem enter_takeDao (source : DeclarationSource) (e : Extraction) (d : Declaration) :
    ∃ a : Account Dao, a.declaration = d ∧ a.IsOwn Dao.name ∧
      (∀ dao, a.model? = some dao → Dao.ofDeclaration source e.scope d = .ok dao) ∧
      takeDao source e d = e.enter addDao a :=
  ⟨_, rfl, (Dao.isOwn_ofDeclaration source e.scope d).claim _,
    fun _ h => ok_of_claimed (Account.model?_ofAttempt.mp h), settle_eq_enter addDao e d _⟩

theorem enter_takeDatabase (e : Extraction) (d : Declaration) :
    ∃ a : Account Database, a.declaration = d ∧ a.IsOwn Database.name ∧
      (∀ database, a.model? = some database → Database.ofDeclaration e.scope d = .ok database) ∧
      takeDatabase e d = e.enter addDatabase a :=
  ⟨_, rfl, (Database.isOwn_ofDeclaration e.scope d).claim _,
    fun _ h => ok_of_claimed (Account.model?_ofAttempt.mp h), settle_eq_enter addDatabase e d _⟩

/-! ## Runs -/

/-- A run enters an account for each of its declarations. What is known of the models that there are
when an account is entered may depend on what every addition keeps. -/
theorem exists_accounts {M : Type} {add : Model → M → Model} {nameOf : M → QualifiedName}
    {take : Extraction → Declaration → Extraction} {P : Model → Prop} {Q : Account M → Prop}
    (step : ∀ e d, P e.model → ∃ a : Account M, a.declaration = d ∧ a.IsOwn nameOf ∧ Q a ∧
      take e d = e.enter add a)
    (keeps : ∀ model m, P model → P (add model m)) (ds : List Declaration) {e : Extraction}
    (he : P e.model) :
    ∃ as, Accounts nameOf ds as ∧ (∀ a ∈ as, Q a) ∧ ds.foldl take e = as.foldl (enter add) e := by
  induction ds generalizing e with
  | nil => exact ⟨[], ⟨rfl, List.forall_mem_nil _⟩, List.forall_mem_nil _, rfl⟩
  | cons d ds ih =>
    obtain ⟨a, hd, hown, ha, htake⟩ := step e d he
    have hnext : P (take e d).model := by
      rw [htake, enter]
      cases a.model? with
      | none => exact he
      | some m => exact keeps _ m he
    obtain ⟨as, has, hall, hfold⟩ := ih hnext
    refine ⟨a :: as, ⟨?_, ?_⟩, List.forall_mem_cons.mpr ⟨ha, hall⟩, ?_⟩
    · rw [List.map_cons, hd, has.declarations]
    · exact List.forall_mem_cons.mpr ⟨hown, has.own⟩
    · rw [List.foldl_cons, List.foldl_cons, hfold, htake]

/-- What the accounts of a run hold is put to what there is, in order. -/
theorem foldl_enter {M : Type} (add : Model → M → Model) (as : List (Account M))
    (e : Extraction) :
    as.foldl (enter add) e = {
      model := (as.filterMap (·.model?)).foldl add e.model
      deferred := e.deferred ++ as.filterMap (·.deferred?)
      errors := e.errors ++ as.filterMap (·.error?)
      diagnostics := e.diagnostics ++ as.flatMap (·.diagnostics) } := by
  induction as generalizing e with
  | nil => simp
  | cons a as ih =>
    rw [List.foldl_cons, ih]
    obtain ⟨d, fate, warnings⟩ := a
    cases fate <;> simp [enter, Account.model?, Account.deferred?, Account.error?]

/-- The accounts of DAOs, which are accepted for the entities that there are. -/
theorem exists_dao_accounts (source : DeclarationSource) (ds : List Declaration)
    (e : Extraction) :
    ∃ as, Accounts Dao.name ds as ∧
      (∀ a ∈ as, ∃ scope : Scope, scope.model.entities = e.model.entities ∧
        ∀ dao, a.model? = some dao → Dao.ofDeclaration source scope a.declaration = .ok dao) ∧
      ds.foldl (takeDao source) e = as.foldl (enter addDao) e := by
  refine exists_accounts (P := fun model => model.entities = e.model.entities)
    (fun e' d he => ?_) (fun model dao h => ?_) ds rfl
  · obtain ⟨a, rfl, hown, hok, htake⟩ := enter_takeDao source e' d
    exact ⟨a, rfl, hown, ⟨e'.scope, he, hok⟩, htake⟩
  · exact h

/-- The accounts of databases, which are accepted for the entities and DAOs that there are. -/
theorem exists_database_accounts (ds : List Declaration) (e : Extraction) :
    ∃ as, Accounts Database.name ds as ∧
      (∀ a ∈ as, ∃ scope : Scope, scope.model.entities = e.model.entities ∧
        scope.model.daos = e.model.daos ∧
        ∀ database, a.model? = some database →
          Database.ofDeclaration scope a.declaration = .ok database) ∧
      ds.foldl takeDatabase e = as.foldl (enter addDatabase) e := by
  refine exists_accounts
    (P := fun model => model.entities = e.model.entities ∧ model.daos = e.model.daos)
    (fun e' d he => ?_) (fun model database h => ?_) ds ⟨rfl, rfl⟩
  · obtain ⟨a, rfl, hown, hok, htake⟩ := enter_takeDatabase e' d
    exact ⟨a, rfl, hown, ⟨e'.scope, he.1, he.2, hok⟩, htake⟩
  · exact h

theorem foldl_addEntity (model : Model) (ms : List Entity) :
    ms.foldl addEntity model = { model with entities := model.entities ++ ms } := by
  induction ms generalizing model with
  | nil => simp
  | cons m ms ih => simp [ih, addEntity]

theorem foldl_addDao (model : Model) (ms : List Dao) :
    ms.foldl addDao model = { model with daos := model.daos ++ ms } := by
  induction ms generalizing model with
  | nil => simp
  | cons m ms ih => simp [ih, addDao]

theorem foldl_addDatabase (model : Model) (ms : List Database) :
    ms.foldl addDatabase model = { model with databases := model.databases ++ ms } := by
  induction ms generalizing model with
  | nil => simp
  | cons m ms ih => simp [ih, addDatabase]

/-- The extraction of a source holds what the accounts of its declarations hold. DAOs were accepted
when the models of all entities were known, and databases when those of all DAOs were as well. -/
theorem exists_scoped_accounts (source : DeclarationSource) :
    ∃ (entities : List (Account Entity)) (daos : List (Account Dao))
      (databases : List (Account Database)),
      Accounts Entity.name (source.ofKind .entity) entities ∧
        Accounts Dao.name (source.ofKind .dao) daos ∧
        Accounts Database.name (source.ofKind .database) databases ∧
        ofSource source = {
          model := {
            entities := entities.filterMap (·.model?)
            daos := daos.filterMap (·.model?)
            databases := databases.filterMap (·.model?) }
          deferred := entities.filterMap (·.deferred?) ++ daos.filterMap (·.deferred?) ++
            databases.filterMap (·.deferred?)
          errors := entities.filterMap (·.error?) ++ daos.filterMap (·.error?) ++
            databases.filterMap (·.error?)
          diagnostics := entities.flatMap (·.diagnostics) ++ daos.flatMap (·.diagnostics) ++
            databases.flatMap (·.diagnostics) } ∧
        (∀ a ∈ daos, ∃ scope : Scope, scope.model.entities = (ofSource source).model.entities ∧
          ∀ dao, a.model? = some dao → Dao.ofDeclaration source scope a.declaration = .ok dao) ∧
        ∀ a ∈ databases, ∃ scope : Scope,
          scope.model.entities = (ofSource source).model.entities ∧
          scope.model.daos = (ofSource source).model.daos ∧
          ∀ database, a.model? = some database →
            Database.ofDeclaration scope a.declaration = .ok database := by
  obtain ⟨entities, hentities, _, hfirst⟩ :=
    exists_accounts (P := fun _ => True) (Q := fun _ => True)
      (fun e d _ => by simpa using enter_takeEntity source e d) (fun _ _ _ => trivial)
      (source.ofKind .entity) (e := {}) trivial
  obtain ⟨daos, hdaos, hscopes, hsecond⟩ := exists_dao_accounts source (source.ofKind .dao)
    (entities.foldl (enter addEntity) {})
  obtain ⟨databases, hdatabases, hscopes', hthird⟩ :=
    exists_database_accounts (source.ofKind .database)
      (daos.foldl (enter addDao) (entities.foldl (enter addEntity) {}))
  have hrun : ofSource source = databases.foldl (enter addDatabase)
      (daos.foldl (enter addDao) (entities.foldl (enter addEntity) {})) := by
    rw [ofSource, hfirst, hsecond, hthird]
  rw [hrun]
  simp only [foldl_enter, foldl_addEntity, foldl_addDao, foldl_addDatabase, List.nil_append]
    at hscopes hscopes' ⊢
  exact ⟨entities, daos, databases, hentities, hdaos, hdatabases, rfl, hscopes, hscopes'⟩

/-- The extraction of a source holds what the accounts of its declarations hold. -/
theorem exists_accounts_ofSource (source : DeclarationSource) :
    ∃ (entities : List (Account Entity)) (daos : List (Account Dao))
      (databases : List (Account Database)),
      Accounts Entity.name (source.ofKind .entity) entities ∧
        Accounts Dao.name (source.ofKind .dao) daos ∧
        Accounts Database.name (source.ofKind .database) databases ∧
        ofSource source = {
          model := {
            entities := entities.filterMap (·.model?)
            daos := daos.filterMap (·.model?)
            databases := databases.filterMap (·.model?) }
          deferred := entities.filterMap (·.deferred?) ++ daos.filterMap (·.deferred?) ++
            databases.filterMap (·.deferred?)
          errors := entities.filterMap (·.error?) ++ daos.filterMap (·.error?) ++
            databases.filterMap (·.error?)
          diagnostics := entities.flatMap (·.diagnostics) ++ daos.flatMap (·.diagnostics) ++
            databases.flatMap (·.diagnostics) } := by
  obtain ⟨entities, daos, databases, hentities, hdaos, hdatabases, hsource, _⟩ :=
    exists_scoped_accounts source
  exact ⟨entities, daos, databases, hentities, hdaos, hdatabases, hsource⟩

/-- The errors that accounts report are those that they hold. -/
theorem filter_flatMap_diagnostics {M : Type} {nameOf : M → QualifiedName}
    {ds : List Declaration} {as : List (Account M)} (h : Accounts nameOf ds as) :
    (as.flatMap (·.diagnostics)).filter Diagnostic.isError =
      (as.filterMap (·.error?)).map MalformedDeclaration.diagnostic := by
  have hown := h.own
  clear h
  induction as with
  | nil => rfl
  | cons a as ih =>
    obtain ⟨ha, has⟩ := List.forall_mem_cons.mp hown
    rw [List.flatMap_cons, List.filter_append, ha.filter_diagnostics, ih has]
    cases herror : a.error? <;> simp [herror]

/-- The errors that are reported are those that are kept, in order. -/
theorem filter_diagnostics_ofSource (source : DeclarationSource) :
    (ofSource source).diagnostics.filter Diagnostic.isError =
      (ofSource source).errors.map MalformedDeclaration.diagnostic := by
  obtain ⟨entities, daos, databases, hentities, hdaos, hdatabases, hsource⟩ :=
    exists_accounts_ofSource source
  rw [hsource]
  simp only [List.filter_append, List.map_append, filter_flatMap_diagnostics hentities,
    filter_flatMap_diagnostics hdaos, filter_flatMap_diagnostics hdatabases]

/-- The order of declarations of different kinds does not matter. -/
theorem ofSource_congr {source : DeclarationSource} {ds : List Declaration}
    (h : ∀ kind, ds.filter (·.kind == kind) = source.ofKind kind) :
    ofSource { source with declarations := ds } = ofSource source := by
  have hkind (kind : DeclarationKind) :
      DeclarationSource.ofKind { source with declarations := ds } kind = source.ofKind kind :=
    h kind
  unfold ofSource
  simp only [hkind]
  rfl

/-- Every declaration of a source ends in one place: in a model of its kind, among the declarations
put off, or among the errors. These hold nothing else, and each kind keeps its order. The errors
that are reported are those that are kept, in order and with their places. How declarations of
different kinds are mixed makes no difference. -/
theorem ofSource_accounts (source : DeclarationSource) :
    let e := ofSource source
    (∃ (entities : List (Account Entity)) (daos : List (Account Dao))
        (databases : List (Account Database)),
      Accounts Entity.name (source.ofKind .entity) entities ∧
      Accounts Dao.name (source.ofKind .dao) daos ∧
      Accounts Database.name (source.ofKind .database) databases ∧
      e.model.entities = entities.filterMap (·.model?) ∧
      e.model.daos = daos.filterMap (·.model?) ∧
      e.model.databases = databases.filterMap (·.model?) ∧
      e.deferred = entities.filterMap (·.deferred?) ++ daos.filterMap (·.deferred?) ++
        databases.filterMap (·.deferred?) ∧
      e.errors = entities.filterMap (·.error?) ++ daos.filterMap (·.error?) ++
        databases.filterMap (·.error?) ∧
      e.diagnostics = entities.flatMap (·.diagnostics) ++ daos.flatMap (·.diagnostics) ++
        databases.flatMap (·.diagnostics)) ∧
    e.diagnostics.filter Diagnostic.isError =
      e.errors.map (fun error => .error error.message error.location) ∧
    ∀ ds : List Declaration, (∀ kind, ds.filter (·.kind == kind) = source.ofKind kind) →
      ofSource { source with declarations := ds } = e := by
  intro e
  refine ⟨?_, filter_diagnostics_ofSource source, fun ds h => ofSource_congr h⟩
  obtain ⟨entities, daos, databases, hentities, hdaos, hdatabases, hsource⟩ :=
    exists_accounts_ofSource source
  have he : e = _ := hsource
  refine ⟨entities, daos, databases, hentities, hdaos, hdatabases, ?_⟩
  rw [he]
  exact ⟨rfl, rfl, rfl, rfl, rfl, rfl⟩

/-- A DAO between two entities and one that has to wait; the second entity has the name of the
first. -/
def mixedSource : DeclarationSource where
  declarations := [⟨0, .entity, ⟨"db::Tag"⟩, [.entity none], none⟩,
    ⟨1, .dao, ⟨"db::TagDao"⟩, [.dao], none⟩,
    ⟨2, .entity, ⟨"old::Tag"⟩, [.entity none], none⟩,
    ⟨3, .entity, ⟨"db::Note"⟩, [.entity none], none⟩]
  members d :=
    match d.id with
    | 1 => .ok []
    | 3 => .error ⟨d.name, "_"⟩
    | _ => .ok [⟨d.id, 0, "id", .field (.named "i64"), none⟩]
  annotationsOf _ := [.primaryKey false]

/-- The DAO may as well be declared first: one entity is modeled, one refused and one put off. -/
theorem ofSource_accounts_mixed :
    let ds := mixedSource.ofKind .dao ++ mixedSource.ofKind .entity
    let e := ofSource mixedSource
    (∀ kind, ds.filter (·.kind == kind) = mixedSource.ofKind kind) ∧
      ofSource { mixedSource with declarations := ds } = e ∧
      e.model.entities.map (·.name) = [⟨"db::Tag"⟩] ∧
      e.errors.map (·.declaration) = [⟨"old::Tag"⟩] ∧
      e.deferred.map (·.name) = [⟨"db::Note"⟩] := by
  intro ds e
  have hkinds (kind : DeclarationKind) :
      ds.filter (·.kind == kind) = mixedSource.ofKind kind := by
    cases kind <;> rfl
  obtain ⟨_, _, hmixed⟩ := ofSource_accounts mixedSource
  refine ⟨hkinds, hmixed ds hkinds, ?_⟩
  decide +kernel

end Extraction

end DaoGen
