import DaoGen.Proofs.Extraction.Account
import DaoGen.Proofs.Model.Closed

/-!
# Names of declarations put off

A written name is bound to the one model that it fits. Only a name that fits none may stand for a
declaration that was put off, and then what uses the name is not modeled either. So a name that fits
a model is bound to it even where it was meant for a declaration of the same simple name that was
put off.

## Main results

* `Scope.resolve_eq_found_iff`: which names are bound does not depend on what was put off.
* `Extraction.ofSource_namesResolve`: how the names in DAOs and databases of a source are resolved.
* `Extraction.ofSource_binds_shadowed`: a DAO is bound to another entity than the one put off.
-/
namespace DaoGen

/-! ## Written names -/

namespace Scope

/-- A written name fits a declared one: its simple name, or its full path. -/
def Fits (written : String) (name : QualifiedName) : Prop := fits (pathOf written) name = true

instance (written : String) (name : QualifiedName) : Decidable (Fits written name) :=
  inferInstanceAs (Decidable (fits (pathOf written) name = true))

/-- What a written name of one kind stands for. -/
def ofKind (scope : Scope) : DeclarationKind → String → Resolution
  | .entity => scope.entity
  | .dao => scope.dao
  | .database => scope.resolve (scope.model.databases.map (·.name))

theorem simple_eq_of_fits {path : String} {name other : QualifiedName}
    (h : fits path name = true) (hother : fits path other = true) :
    name.simple = other.simple := by
  unfold fits at h hother
  split at h <;> rename_i hcolons
  · have hpath : name.path = other.path := by simp_all
    rw [QualifiedName.simple, QualifiedName.simple, hpath]
  · simp_all

variable {scope : Scope} {modeled : List QualifiedName} {written : String}

/-- A written name fits at most one of some names with distinct simple names. -/
theorem filter_fits_of_nodup (hmodeled : (modeled.map (·.simple)).Nodup) {name : QualifiedName}
    (hname : name ∈ modeled) (hfits : Fits written name) :
    modeled.filter (fits (pathOf written)) = [name] := by
  induction modeled with
  | nil => cases hname
  | cons other rest ih =>
    obtain ⟨hfresh, hrest⟩ := List.nodup_cons.mp hmodeled
    have hsimple (n) (hn : fits (pathOf written) n = true) : n.simple = name.simple :=
      simple_eq_of_fits hn hfits
    rcases List.mem_cons.mp hname with rfl | hname
    · have hnone : rest.filter (fits (pathOf written)) = [] := by
        refine List.filter_eq_nil_iff.mpr fun n hn hfit => hfresh ?_
        exact List.mem_map.mpr ⟨n, hn, hsimple n hfit⟩
      rw [List.filter_cons_of_pos hfits, hnone]
    · have hother : ¬ fits (pathOf written) other = true := fun hfit =>
        hfresh (List.mem_map.mpr ⟨name, hname, (hsimple other hfit).symm⟩)
      rw [List.filter_cons_of_neg hother, ih hrest hname]

/-- A name is bound to a model just if it fits that, whatever was put off. -/
theorem resolve_eq_found_iff (hmodeled : (modeled.map (·.simple)).Nodup) {name : QualifiedName} :
    scope.resolve modeled written = .found name ↔ name ∈ modeled ∧ Fits written name := by
  constructor
  · intro h
    unfold resolve at h
    dsimp only at h
    split at h
    · next hfit =>
      cases h
      exact List.mem_filter.mp (hfit ▸ List.mem_singleton_self name)
    · split at h <;> cases h
    · cases h
  · rintro ⟨hname, hfits⟩
    simp only [resolve, filter_fits_of_nodup hmodeled hname hfits]

/-- A name waits for a declaration that was put off just if it fits that, and no model. -/
theorem resolve_eq_deferred_iff :
    scope.resolve modeled written = .deferred ↔
      (∀ name ∈ modeled, ¬ Fits written name) ∧ ∃ name ∈ scope.deferred, Fits written name := by
  have hnone : (∀ name ∈ modeled, ¬ Fits written name) ↔
      modeled.filter (fits (pathOf written)) = [] := List.filter_eq_nil_iff.symm
  have hsome : (∃ name ∈ scope.deferred, Fits written name) ↔
      scope.deferred.any (fits (pathOf written)) = true := List.any_eq_true.symm
  rw [hnone, hsome, resolve]
  split
  · next hfit => simp [hfit]
  · next hfit =>
    rw [hfit]
    cases scope.deferred.any (fits (pathOf written)) <;> simp
  · next _ hnil => exact ⟨nofun, fun ⟨h, _⟩ => absurd h hnil⟩

end Scope

/-- The modeled names of one kind. -/
def Model.namesOf (model : Model) : DeclarationKind → List QualifiedName
  | .entity => model.entities.map (·.name)
  | .dao => model.daos.map (·.name)
  | .database => model.databases.map (·.name)

theorem Model.Closed.nodup_namesOf {model : Model} (h : model.Closed) (kind : DeclarationKind) :
    ((model.namesOf kind).map (·.simple)).Nodup := by
  cases kind with
  | entity => simpa [namesOf, Function.comp_def] using h.entity_names
  | dao => simpa [namesOf, Function.comp_def] using h.dao_names
  | database => simpa [namesOf, Function.comp_def] using h.database_names

theorem Scope.ofKind_eq (scope : Scope) (kind : DeclarationKind) (written : String) :
    scope.ofKind kind written = scope.resolve (scope.model.namesOf kind) written := by
  cases kind <;> rfl

/-! ## Names in declarations -/

namespace Declaration

/-- A DAO has a method that is to write what a parameter of it holds, of the written type. -/
def Writes (source : DeclarationSource) (d : Declaration) (written : String) : Prop :=
  ∃ members, source.members d = .ok members ∧
    ∃ member ∈ members, ∃ signature, member.kind = .method signature ∧
      (∃ op : WriteOp, op.mark ∈ source.annotationsOf member) ∧
      ∃ param ∈ signature.logicalParams, (Write.elementOf param.ty).1.name = written

/-- A database lists a written name among those of a kind. -/
def Lists (d : Declaration) (kind : DeclarationKind) (written : String) : Prop :=
  ∃ spec, Database.spec? d = some spec ∧
    match kind with
    | .entity => written ∈ spec.entities
    | .dao => written ∈ spec.daos
    | .database => False

end Declaration

/-- Every type that an accepted DAO writes is bound. -/
theorem Dao.exists_found_of_writes {source : DeclarationSource} {scope : Scope} {d : Declaration}
    {dao : Dao} (h : Dao.ofDeclaration source scope d = .ok dao) {written : String}
    (hwrites : d.Writes source written) : ∃ name, scope.entity written = .found name := by
  obtain ⟨members, hmembers, member, hmember, signature, hkind, ⟨op, hop⟩, param, hparam, rfl⟩ :=
    hwrites
  obtain ⟨_, members', hmembers', hoperations⟩ := Dao.ofDeclaration_ok h
  cases hmembers.symm.trans hmembers'
  obtain ⟨operation, _, hoperation⟩ := hoperations.exists_right hmember
  obtain ⟨signature', hkind', hmethod⟩ := Operation.ofMember_ok hoperation
  cases hkind.symm.trans hkind'
  obtain ⟨hmarked, hwrite⟩ := OperationKind.ofAnnotations_eq_ok.mp (Operation.ofMethod_ok hmethod)
  have hmark : op.mark ∈ (source.annotationsOf member).filter (·.isMarker) :=
    List.mem_filter.mpr ⟨hop, by cases op <;> rfl⟩
  obtain ⟨_, hparams, _⟩ := Operation.ofMethod_declared hmethod
  generalize signature.hasBody = hasBody at hmarked
  cases hoperationKind : operation.kind with
  | custom =>
    rw [hoperationKind] at hmarked
    cases hmarked with
    | custom hmarkers => simp [hmarkers] at hmark
  | query query =>
    rw [hoperationKind] at hmarked
    cases hmarked with
    | query hmarkers =>
      rw [hmarkers, List.mem_singleton] at hmark
      cases op <;> cases hmark
  | write write =>
    obtain ⟨param', hone, _, _, _, _, hfound, _⟩ :=
      Write.ofParams_eq_ok.mp (hwrite write hoperationKind)
    have hmem : LogicalParam.ofParam param ∈ [param'] :=
      hone ▸ hparams ▸ List.mem_map_of_mem hparam
    cases List.mem_singleton.mp hmem
    exact ⟨write.entity, hfound⟩

/-- The names of an accepted database are those that the listed names are bound to, in order. -/
theorem Database.forall₂_resolveAll {d : Declaration} {kind : DeclarationKind}
    {resolve : String → Resolution} {found names : List QualifiedName} {written : List String}
    (h : resolveAll d kind resolve found written = .ok names) :
    ∃ later, names = found ++ later ∧
      List.Forall₂ (fun w name => resolve w = .found name) written later := by
  induction written generalizing found with
  | nil =>
    cases h
    exact ⟨[], by simp, .nil⟩
  | cons w rest ih =>
    unfold resolveAll at h
    split at h
    · cases h
    · cases h
    · cases h
    · next name hname =>
      split at h
      · cases h
      · obtain ⟨later, rfl, hlater⟩ := ih h
        exact ⟨name :: later, by simp, .cons hname hlater⟩

theorem Database.forall₂_of_ofDeclaration {scope : Scope} {d : Declaration} {database : Database}
    (h : ofDeclaration scope d = .ok database) :
    ∃ spec, spec? d = some spec ∧
      List.Forall₂ (fun w name => scope.entity w = .found name) spec.entities database.entities ∧
      List.Forall₂ (fun w name => scope.dao w = .found name) spec.daos database.daos := by
  unfold ofDeclaration at h
  split at h
  · cases h
  · split at h
    · cases h
    · next spec hspec =>
      split at h
      · cases h
      · obtain ⟨entities, hentities, h⟩ := Except.bind_eq_ok.mp h
        obtain ⟨daos, hdaos, h⟩ := Except.bind_eq_ok.mp h
        cases Except.pure_eq_ok.mp h
        obtain ⟨_, rfl, hentities⟩ := forall₂_resolveAll hentities
        obtain ⟨_, rfl, hdaos⟩ := forall₂_resolveAll hdaos
        exact ⟨spec, hspec, hentities, hdaos⟩

namespace Extraction

/-! ## Names in a source -/

/-- How the names in DAOs and databases are resolved by what a source leads to. -/
structure NamesResolve (source : DeclarationSource) (e : Extraction) (daos : List (Account Dao))
    (databases : List (Account Database)) : Prop where
  /-- A name is bound to the model that it fits, whatever was put off. -/
  found_iff : ∀ kind written name, e.scope.ofKind kind written = .found name ↔
    name ∈ e.model.namesOf kind ∧ Scope.Fits written name
  /-- A name that fits a declaration put off, and no model, stands for the former. What uses the
  name is not modeled. -/
  waits : ∀ kind written,
    (∃ d ∈ e.deferred, d.kind = kind ∧ Scope.Fits written d.name) →
    (∀ name ∈ e.model.namesOf kind, ¬ Scope.Fits written name) →
      e.scope.ofKind kind written = .deferred ∧
      (kind = .entity → ∀ a ∈ daos, a.declaration.Writes source written → a.model? = none) ∧
      ∀ a ∈ databases, a.declaration.Lists kind written → a.model? = none
  /-- A modeled DAO writes the entities that its names are bound to. -/
  writes : ∀ a ∈ daos, ∀ dao, a.model? = some dao → ∀ op ∈ dao.operations, ∀ write,
    op.kind = .write write → ∃ param, op.params = [param] ∧
      e.scope.entity (Write.elementOf param.ty).1.name = .found write.entity
  /-- A modeled database lists what its names are bound to. -/
  lists : ∀ a ∈ databases, ∀ database, a.model? = some database →
    ∃ spec, Database.spec? a.declaration = some spec ∧
      List.Forall₂ (fun w name => e.scope.entity w = .found name) spec.entities
        database.entities ∧
      List.Forall₂ (fun w name => e.scope.dao w = .found name) spec.daos database.daos

/-- Scopes with the same models of a kind bind the same names. -/
theorem found_congr {scope scope' : Scope} (h : scope'.model.Closed) (kind : DeclarationKind)
    (hnames : scope.model.namesOf kind = scope'.model.namesOf kind) {written : String}
    {name : QualifiedName} (hfound : scope.ofKind kind written = .found name) :
    scope'.ofKind kind written = .found name := by
  have hnodup := h.nodup_namesOf kind
  rw [Scope.ofKind_eq, hnames, Scope.resolve_eq_found_iff hnodup] at hfound
  rwa [Scope.ofKind_eq, Scope.resolve_eq_found_iff hnodup]

/-- What modeled DAOs and databases were bound to is what their names stand for in the end. -/
theorem exists_bound_accounts (source : DeclarationSource) :
    let e := ofSource source
    ∃ (daos : List (Account Dao)) (databases : List (Account Database)),
      Accounts Dao.name (source.ofKind .dao) daos ∧
      e.model.daos = daos.filterMap (·.model?) ∧
      Accounts Database.name (source.ofKind .database) databases ∧
      e.model.databases = databases.filterMap (·.model?) ∧
      (∀ a ∈ daos, ∀ dao, a.model? = some dao →
        ∃ scope, Dao.ofDeclaration source scope a.declaration = .ok dao ∧
          ∀ written name, scope.entity written = .found name →
            e.scope.entity written = .found name) ∧
      ∀ a ∈ databases, ∀ database, a.model? = some database →
        ∃ spec, Database.spec? a.declaration = some spec ∧
          List.Forall₂ (fun w name => e.scope.entity w = .found name) spec.entities
            database.entities ∧
          List.Forall₂ (fun w name => e.scope.dao w = .found name) spec.daos database.daos := by
  intro e
  obtain ⟨entities, daos, databases, _, hdaos, hdatabases, hsource, hscopes, hscopes'⟩ :=
    exists_scoped_accounts source
  have hclosed : e.scope.model.Closed := Model.Closed.ofSource source
  refine ⟨daos, databases, hdaos, by rw [show e = _ from hsource], hdatabases,
    by rw [show e = _ from hsource], fun a ha dao hmodel => ?_, fun a ha database hmodel => ?_⟩
  · obtain ⟨scope, hentities, hok⟩ := hscopes a ha
    refine ⟨scope, hok dao hmodel, fun written name hfound => ?_⟩
    exact found_congr hclosed .entity (congrArg (List.map Entity.name) hentities) hfound
  · obtain ⟨scope, hentities, hdaos, hok⟩ := hscopes' a ha
    obtain ⟨spec, hspec, hlisted, hlisted'⟩ :=
      Database.forall₂_of_ofDeclaration (hok database hmodel)
    refine ⟨spec, hspec, hlisted.imp fun w name hfound => ?_, hlisted'.imp fun w name hfound => ?_⟩
    · exact found_congr hclosed .entity (congrArg (List.map Entity.name) hentities) hfound
    · exact found_congr hclosed .dao (congrArg (List.map Dao.name) hdaos) hfound

/-- The names in DAOs and databases of a source are bound to the models that they fit. Names of
declarations put off that fit no model are not bound, and what uses them is not modeled. -/
theorem ofSource_namesResolve (source : DeclarationSource) :
    let e := ofSource source
    ∃ (daos : List (Account Dao)) (databases : List (Account Database)),
      Accounts Dao.name (source.ofKind .dao) daos ∧
      e.model.daos = daos.filterMap (·.model?) ∧
      Accounts Database.name (source.ofKind .database) databases ∧
      e.model.databases = databases.filterMap (·.model?) ∧
      NamesResolve source e daos databases := by
  intro e
  obtain ⟨daos, databases, hdaos, hmodels, hdatabases, hmodels', hdao, hdatabase⟩ :=
    exists_bound_accounts source
  have hclosed : e.scope.model.Closed := Model.Closed.ofSource source
  refine ⟨daos, databases, hdaos, hmodels, hdatabases, hmodels', ?_⟩
  exact {
    found_iff kind written name := by
      rw [Scope.ofKind_eq, Scope.resolve_eq_found_iff (hclosed.nodup_namesOf kind)]
      rfl
    waits kind written hdeferred hmodeled := by
      have hwaits : e.scope.ofKind kind written = .deferred := by
        rw [Scope.ofKind_eq, Scope.resolve_eq_deferred_iff]
        obtain ⟨d, hd, _, hfits⟩ := hdeferred
        exact ⟨hmodeled, d.name, List.mem_map_of_mem hd, hfits⟩
      refine ⟨hwaits, ?_, ?_⟩
      · rintro rfl a ha hwrites
        by_contra hsome
        obtain ⟨dao, hmodel⟩ := Option.ne_none_iff_exists'.mp hsome
        obtain ⟨scope, hok, hfound⟩ := hdao a ha dao hmodel
        obtain ⟨name, hname⟩ := Dao.exists_found_of_writes hok hwrites
        cases hwaits.symm.trans (hfound written name hname)
      · rintro a ha ⟨spec, hspec, hlisted⟩
        by_contra hsome
        obtain ⟨database, hmodel⟩ := Option.ne_none_iff_exists'.mp hsome
        obtain ⟨spec', hspec', hentities, hdaos⟩ := hdatabase a ha database hmodel
        cases hspec.symm.trans hspec'
        cases kind with
        | entity =>
          obtain ⟨name, _, hname⟩ := hentities.exists_right hlisted
          cases hwaits.symm.trans hname
        | dao =>
          obtain ⟨name, _, hname⟩ := hdaos.exists_right hlisted
          cases hwaits.symm.trans hname
        | database => exact hlisted
    writes a ha dao hmodel op hop write hkind := by
      obtain ⟨scope, hok, hfound⟩ := hdao a ha dao hmodel
      obtain ⟨param, hparams, _, _, _, _, hname, _⟩ :=
        Write.ofParams_eq_ok.mp (Dao.ofParams_of_ofDeclaration hok hop hkind)
      exact ⟨param, hparams, hfound _ _ hname⟩
    lists := hdatabase }

/-- Two entities with one simple name, the second of which has to wait, and a DAO and a database
declared beside the second. -/
def shadowedSource : DeclarationSource where
  declarations := [⟨0, .entity, ⟨"a::Tag"⟩, [.entity none], none⟩,
    ⟨1, .entity, ⟨"b::Tag"⟩, [.entity none], none⟩,
    ⟨2, .dao, ⟨"b::TagDao"⟩, [.dao], none⟩,
    ⟨3, .database, ⟨"b::AppDb"⟩, [.database { version := 1, entities := ["Tag"] }], none⟩]
  members d :=
    match d.id with
    | 0 => .ok [⟨0, 0, "id", .field (.named "i64"), none⟩]
    | 1 => .error ⟨d.name, "_"⟩
    | _ => .ok [⟨2, 0, "add", .method { params := [⟨"tag", .named "Tag", []⟩] }, none⟩]
  annotationsOf member := if member.owner = 0 then [.primaryKey false] else [.insert false]

/-- A name that fits an entity put off is bound to another entity, by a DAO and by a database. -/
theorem ofSource_binds_shadowed :
    let e := ofSource shadowedSource
    (∃ d ∈ e.deferred, d.kind = .entity ∧ d.name = ⟨"b::Tag"⟩ ∧ Scope.Fits "Tag" d.name) ∧
    (∃ d ∈ shadowedSource.ofKind .dao, d.Writes shadowedSource "Tag" ∧
      e.model.daos.map (·.name) = [d.name]) ∧
    (∃ d ∈ shadowedSource.ofKind .database, d.Lists .entity "Tag" ∧
      e.model.databases.map (·.name) = [d.name]) ∧
    e.model.daos.map (·.operations.map (·.kind)) =
      [[.write ⟨.insert, ⟨"a::Tag"⟩, "tag", false⟩]] ∧
    e.model.databases.map (·.entities) = [[⟨"a::Tag"⟩]] := by
  intro e
  refine ⟨?_, ?_, ?_, by decide +kernel, by decide +kernel⟩
  · exact ⟨⟨1, .entity, ⟨"b::Tag"⟩, [.entity none], none⟩, by decide +kernel, rfl, rfl,
      by decide +kernel⟩
  · refine ⟨⟨2, .dao, ⟨"b::TagDao"⟩, [.dao], none⟩, by decide +kernel, ?_, by decide +kernel⟩
    exact ⟨_, rfl, _, List.mem_singleton_self _, _, rfl, ⟨.insert, List.mem_singleton_self _⟩, _,
      List.mem_singleton_self _, by decide +kernel⟩
  · exact ⟨⟨3, .database, ⟨"b::AppDb"⟩, [.database { version := 1, entities := ["Tag"] }], none⟩,
      by decide +kernel, ⟨_, rfl, List.mem_singleton_self "Tag"⟩, by decide +kernel⟩

end Extraction

end DaoGen
