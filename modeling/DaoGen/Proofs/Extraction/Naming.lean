import DaoGen.Proofs.Declaration.Collection
import DaoGen.Proofs.Extraction.Deferral
import DaoGen.Proofs.Text.Path

/-!
# Names of modeled declarations

Every model of a source can be named from anywhere: by its simple name and by its full path, behind
any mark of the root. The names of declarations are words of the source files under the paths of
their modules, so that no name has a colon in it and no full path begins with a mark; simple names
are unique among the models of a kind.

## Main definitions

* `IsNamePath`: words joined by `::`, the first of which is no mark of the root.

## Main results

* `isNamePath_ofFiles`: the paths of all declarations of a collection.
* `Extraction.ofFiles_resolves`: how models are named.
-/
namespace DaoGen

open Code Text

/-! ## Paths -/

/-- The names at the front of a path that only say where it starts. -/
def rootNames : List String := ["", "crate", "self"]

/-- Words joined by `::`, the first of which says not only where the path starts. -/
inductive IsNamePath : String → Prop
  | name {name : String} : IsWord name → name ∉ rootNames → IsNamePath name
  | inside {path name : String} : IsNamePath path → IsWord name → IsNamePath (path ++ "::" ++ name)

/-- A path that begins with no mark of the root. -/
def IsBare (path : String) : Prop := ∀ root ∈ rootNames, ¬ StartsWith root path

theorem colon_notMem_of_isWord {name : String} (h : IsWord name) : ':' ∉ name.toList :=
  notMem_of_isWord h (by decide) (by decide) (by decide)

theorem colon_notMem_rootNames : ∀ root ∈ rootNames, ':' ∉ root.toList := by decide

theorem isBare_of_isWord {name : String} (h : IsWord name) : IsBare name := fun _ _ =>
  not_startsWith_of_notMem (colon_notMem_of_isWord h)

namespace IsNamePath

variable {path : String}

/-- A path is its first name, or begins with that. -/
theorem exists_first (h : IsNamePath path) : ∃ first, IsWord first ∧ first ∉ rootNames ∧
    (path = first ∨ ∃ rest, path = first ++ "::" ++ rest) := by
  induction h with
  | name hword hroot => exact ⟨_, hword, hroot, .inl rfl⟩
  | @inside path name _ _ ih =>
    obtain ⟨first, hword, hroot, rfl | ⟨rest, rfl⟩⟩ := ih
    · exact ⟨_, hword, hroot, .inr ⟨name, rfl⟩⟩
    · exact ⟨first, hword, hroot, .inr ⟨rest ++ "::" ++ name, by simp [String.append_assoc]⟩⟩

theorem isBare (h : IsNamePath path) : IsBare path := by
  intro root hroot hstarts
  obtain ⟨first, hword, hfirst, rfl | ⟨rest, rfl⟩⟩ := h.exists_first
  · exact isBare_of_isWord hword root hroot hstarts
  · have heq := eq_of_startsWith (colon_notMem_rootNames root hroot) (colon_notMem_of_isWord hword)
      hstarts
    exact hfirst (heq ▸ hroot)

theorem isWord_simple (h : IsNamePath path) : IsWord (QualifiedName.mk path).simple := by
  cases h with
  | name hword _ =>
    rwa [QualifiedName.simple, lastSegment_of_hasColons
      (hasColons_of_notMem (colon_notMem_of_isWord hword))]
  | @inside path name _ hword =>
    rwa [QualifiedName.simple, lastSegment_append path (colon_notMem_of_isWord hword)]

end IsNamePath

/-- What is named inside of a module has the path of the module and its own name. -/
theorem isNamePath_inside {module name : String} (hmodule : module = "" ∨ IsNamePath module)
    (hname : IsItemName name) : IsNamePath (QualifiedName.inside module name).path := by
  unfold QualifiedName.inside
  rcases hmodule with rfl | hmodule
  · refine .name hname.1 fun hroot => ?_
    simp only [rootNames, List.mem_cons, List.not_mem_nil, or_false] at hroot
    rcases hroot with rfl | rfl | rfl
    · exact hname.ne_empty rfl
    · exact absurd hname.2 (by decide)
    · exact absurd hname.2 (by decide)
  · have hne : module ≠ "" := by
      rintro rfl
      obtain ⟨first, hword, _, hfirst | ⟨rest, hfirst⟩⟩ := hmodule.exists_first
      · exact absurd (hfirst ▸ hword) (by decide)
      · simp at hfirst
    rw [if_neg hne]
    exact .inside hmodule hname.1

/-! ## Declarations -/

mutual

theorem isNamePath_ofItem {file module : String} (hmodule : module = "" ∨ IsNamePath module)
    (item : ItemSyntax) (hnames : item.HasNames IsItemName) :
    ∀ found ∈ Collected.ofItem file module item, IsNamePath found.name.path := by
  cases item with
  | struct | interface =>
    intro found hfound
    obtain ⟨kind, _, rfl⟩ := Option.map_eq_some_iff.mp (Option.mem_toList.mp hfound)
    exact isNamePath_inside hmodule hnames
  | module name inside =>
    exact isNamePath_ofItems (.inr (isNamePath_inside hmodule hnames.1)) inside hnames.2

theorem isNamePath_ofItems {file module : String} (hmodule : module = "" ∨ IsNamePath module)
    (items : List ItemSyntax) (hnames : HaveNames IsItemName items) :
    ∀ found ∈ Collected.ofItems file module items, IsNamePath found.name.path := by
  cases items with
  | nil => exact List.forall_mem_nil _
  | cons item rest =>
    intro found hfound
    rcases List.mem_append.mp hfound with hfound | hfound
    · exact isNamePath_ofItem hmodule item hnames.1 found hfound
    · exact isNamePath_ofItems hmodule rest hnames.2 found hfound

end

namespace Collection

/-- A call declares names under the path of its module. -/
theorem isNamePath_after {c : Collection} (hc : ∀ item ∈ c.items, IsNamePath item.name.path)
    {f : SourceFile} (hmodule : f.module = "" ∨ IsNamePath f.module) :
    ∀ item ∈ (c.after f).items, IsNamePath item.name.path := by
  unfold after addFile add
  cases hparse : parseFile f.code with
  | none => exact hc
  | some items =>
    intro item hitem
    rcases List.mem_append.mp hitem with hold | hnew
    · exact hc item hold
    · exact isNamePath_ofItems hmodule items (hasNames_of_parseFile hparse) item hnew

/-- All declarations have names under the paths of their modules. -/
theorem isNamePath_ofFiles {files : List SourceFile}
    (hmodules : ∀ f ∈ files, f.module = "" ∨ IsNamePath f.module) :
    ∀ d ∈ (ofFiles files).declarations, IsNamePath d.name.path := by
  have hitems (c : Collection) (hc : ∀ item ∈ c.items, IsNamePath item.name.path) :
      ∀ item ∈ (files.foldl after c).items, IsNamePath item.name.path := by
    induction files generalizing c with
    | nil => exact hc
    | cons f files ih =>
      obtain ⟨hf, hrest⟩ := List.forall_mem_cons.mp hmodules
      exact ih hrest _ (isNamePath_after hc hf)
  intro d hd
  obtain ⟨i, hi⟩ := List.getElem?_of_mem hd
  rw [declarations_getElem?] at hi
  obtain ⟨item, hitem, rfl⟩ := Option.map_eq_some_iff.mp hi
  exact hitems {} (List.forall_mem_nil _) item (List.mem_of_getElem? hitem)

end Collection

/-! ## Models -/

/-- A model has the name of a declaration. -/
theorem Accounts.exists_declaration {M : Type} {nameOf : M → QualifiedName}
    {ds : List Declaration} {as : List (Account M)} (h : Accounts nameOf ds as) {q : QualifiedName}
    (hq : q ∈ (as.filterMap (·.model?)).map nameOf) : ∃ d ∈ ds, d.name = q := by
  obtain ⟨m, hm, rfl⟩ := List.mem_map.mp hq
  obtain ⟨a, ha, hmodel⟩ := List.mem_filterMap.mp hm
  have hfate : a.fate = .modeled m := by
    unfold Account.model? at hmodel
    split at hmodel
    · next heq =>
      cases hmodel
      exact heq
    · cases hmodel
    · cases hmodel
  refine ⟨a.declaration, ?_, ((h.own a ha).model_name m hfate).symm⟩
  exact h.declarations ▸ List.mem_map_of_mem ha

namespace Extraction

theorem exists_declaration_of_mem_namesOf {source : DeclarationSource} {kind : DeclarationKind}
    {q : QualifiedName} (h : q ∈ (ofSource source).model.namesOf kind) :
    ∃ d ∈ source.declarations, d.name = q := by
  obtain ⟨entities, daos, databases, hentities, hdaos, hdatabases, hsource⟩ :=
    exists_accounts_ofSource source
  rw [hsource] at h
  have hkind : ∃ d ∈ source.ofKind kind, d.name = q := by
    cases kind with
    | entity => exact hentities.exists_declaration h
    | dao => exact hdaos.exists_declaration h
    | database => exact hdatabases.exists_declaration h
  obtain ⟨d, hd, hname⟩ := hkind
  exact ⟨d, List.mem_of_mem_filter hd, hname⟩

end Extraction

/-! ## Written names -/

namespace Scope

theorem pathOf_eq (written : String) :
    pathOf written =
      rootNames.foldl (fun rest root => trimPrefix (root ++ "::") rest) written := rfl

/-- Marks are removed in one order: those that stand in this order are gone, the others stay. -/
theorem pathOf_behind {roots : List String} (hroots : ∀ root ∈ roots, root ∈ rootNames)
    {path : String} (hpath : IsBare path) :
    pathOf (behind roots path) = behind (trimNames rootNames roots) path := by
  rw [pathOf_eq]
  refine foldl_trimPrefix_behind (fun root hroot => ?_) fun root hroot => ?_
  · exact ⟨colon_notMem_rootNames root hroot, hpath root hroot⟩
  · exact colon_notMem_rootNames root (hroots root hroot)

/-- A name fits its own path, and its simple name. -/
theorem fits_path (q : QualifiedName) : fits q.path q = true := by
  unfold fits
  split
  · exact beq_self_eq_true _
  · next h =>
    rw [QualifiedName.simple, lastSegment_of_hasColons (Bool.eq_false_iff.mpr h)]
    exact beq_self_eq_true _

theorem fits_simple {q : QualifiedName} (h : IsNamePath q.path) : fits q.simple q = true := by
  rw [fits, hasColons_of_notMem (colon_notMem_of_isWord h.isWord_simple)]
  simp

/-- The ways to write a name: its simple name, or its path behind at most one mark of the root. -/
def writtenForms (q : QualifiedName) : List String :=
  [q.simple, q.path, "crate::" ++ q.path, "::" ++ q.path, "self::" ++ q.path]

theorem fits_writtenForms {q : QualifiedName} (h : IsNamePath q.path) :
    ∀ written ∈ writtenForms q, Fits written q := by
  have hplain {path : String} (hpath : IsBare path) (hfits : fits path q = true) :
      Fits path q := by
    rw [Fits, ← show behind [] path = path from rfl, pathOf_behind (List.forall_mem_nil _) hpath]
    exact hfits
  have hmarked : ∀ root ∈ rootNames, Fits (root ++ "::" ++ q.path) q := by
    intro root hroot
    have hgone : ∀ root ∈ rootNames, trimNames rootNames [root] = [] := by decide
    have hbehind : behind [root] q.path = root ++ "::" ++ q.path := rfl
    rw [Fits, ← hbehind, pathOf_behind (by simpa using hroot) h.isBare, hgone root hroot]
    exact fits_path q
  simp only [rootNames, List.forall_mem_cons] at hmarked
  obtain ⟨hempty, hcrate, hself, _⟩ := hmarked
  simp only [writtenForms, List.forall_mem_cons]
  exact ⟨hplain (isBare_of_isWord h.isWord_simple) (fits_simple h), hplain h.isBare (fits_path q),
    hcrate, hempty, hself, List.forall_mem_nil _⟩

/-- A path of several names fits only the name that it is the full path of. -/
theorem path_eq_of_fits {written : String} {q : QualifiedName} (h : Fits written q)
    (hcolons : hasColons (pathOf written) = true) : q.path = pathOf written := by
  rw [Fits, fits, if_pos hcolons] at h
  exact beq_iff_eq.mp h

/-- Marks that are left in front of a path of several names keep it from fitting. -/
theorem path_eq_of_fits_behind {roots : List String} (hroots : ∀ root ∈ roots, root ∈ rootNames)
    {path : String} (hpath : IsBare path) (hcolons : hasColons path = true) {q : QualifiedName}
    (hq : IsNamePath q.path) (h : Fits (behind roots path) q) : q.path = path := by
  have hleft := trimNames_suffix rootNames roots
  have heq := pathOf_behind hroots hpath
  generalize trimNames rootNames roots = left at hleft heq
  have hsame := path_eq_of_fits h (heq ▸ hasColons_behind hcolons left)
  rw [heq] at hsame
  cases left with
  | nil => exact hsame
  | cons root left =>
    have hroot := hroots root (hleft.subset List.mem_cons_self)
    refine absurd ?_ (hq.isBare root hroot)
    rw [hsame]
    exact startsWith_append root (behind left path)

end Scope

namespace Extraction

/-- Every model of source files can be named, whatever was put off: its simple name, and its full
path behind at most one mark of the root, stand for it and nothing else. A path of several names
stands only for the model of just this path, however many marks are in front of it. -/
theorem ofFiles_resolves (files : List SourceFile)
    (hmodules : ∀ f ∈ files, f.module = "" ∨ IsNamePath f.module) (deferred : List QualifiedName)
    (kind : DeclarationKind) :
    let scope : Scope := ⟨(ofSource (Collection.ofFiles files).source).model, deferred⟩
    (∀ q ∈ scope.model.namesOf kind, ∀ written ∈ Scope.writtenForms q,
      scope.ofKind kind written = .found q) ∧
    ∀ written q, scope.ofKind kind written = .found q →
      (hasColons (Scope.pathOf written) = true → q.path = Scope.pathOf written) ∧
      ∀ roots path, (∀ root ∈ roots, root ∈ rootNames) → written = behind roots path →
        IsBare path → hasColons path = true → q.path = path := by
  intro scope
  have hnodup := (Model.Closed.ofSource (Collection.ofFiles files).source).nodup_namesOf kind
  have hpath : ∀ q ∈ scope.model.namesOf kind, IsNamePath q.path := by
    intro q hq
    obtain ⟨d, hd, rfl⟩ := exists_declaration_of_mem_namesOf hq
    exact Collection.isNamePath_ofFiles hmodules d hd
  refine ⟨fun q hq written hwritten => ?_, fun written q hfound => ?_⟩
  · rw [Scope.ofKind_eq, Scope.resolve_eq_found_iff hnodup]
    exact ⟨hq, Scope.fits_writtenForms (hpath q hq) written hwritten⟩
  · rw [Scope.ofKind_eq, Scope.resolve_eq_found_iff hnodup] at hfound
    obtain ⟨hq, hfits⟩ := hfound
    refine ⟨Scope.path_eq_of_fits hfits, fun roots path hroots heq hbare hcolons => ?_⟩
    exact Scope.path_eq_of_fits_behind hroots hbare hcolons (hpath q hq) (heq ▸ hfits)

/-- A file of the module `app::db`: the entity, and the DAO in an inner module, are found in all the
ways that they can be written. -/
theorem ofFiles_resolves_inner :
    let files : List SourceFile := [⟨"db.rs", "app::db", "#[entity] struct Tag " ++
      "\x7b #[primary_key] id: i64 \x7d mod inner \x7b #[dao] trait TagDao \x7b\x7d \x7d"⟩]
    let scope : Scope := ⟨(ofSource (Collection.ofFiles files).source).model, [⟨"old::Tag"⟩]⟩
    (∀ f ∈ files, f.module = "" ∨ IsNamePath f.module) ∧
      (∀ written ∈ ["Tag", "app::db::Tag", "crate::app::db::Tag", "::app::db::Tag",
        "self::app::db::Tag"], scope.ofKind .entity written = .found ⟨"app::db::Tag"⟩) ∧
      (∀ written ∈ Scope.writtenForms ⟨"app::db::inner::TagDao"⟩,
        scope.ofKind .dao written = .found ⟨"app::db::inner::TagDao"⟩) ∧
      ∀ q, scope.ofKind .entity "self::crate::app::db::Tag" = .found q →
        q.path = "app::db::Tag" := by
  intro files scope
  have hmodules : ∀ f ∈ files, f.module = "" ∨ IsNamePath f.module := by
    have hpath : IsNamePath ("app" ++ "::" ++ "db") :=
      .inside (.name (by decide) (by decide)) (by decide)
    exact List.forall_mem_singleton.mpr (.inr hpath)
  have hmodeled : scope.model.namesOf .entity = [⟨"app::db::Tag"⟩] ∧
      scope.model.namesOf .dao = [⟨"app::db::inner::TagDao"⟩] := by decide +kernel
  obtain ⟨hentity, hfound⟩ := ofFiles_resolves files hmodules [⟨"old::Tag"⟩] .entity
  obtain ⟨hdao, _⟩ := ofFiles_resolves files hmodules [⟨"old::Tag"⟩] .dao
  refine ⟨hmodules, ?_, ?_, fun q hq => ?_⟩
  · exact hentity ⟨"app::db::Tag"⟩ (hmodeled.1 ▸ List.mem_singleton_self _)
  · exact hdao ⟨"app::db::inner::TagDao"⟩ (hmodeled.2 ▸ List.mem_singleton_self _)
  · have hpath : IsNamePath ("app" ++ "::" ++ "db" ++ "::" ++ "Tag") :=
      .inside (.inside (.name (by decide) (by decide)) (by decide)) (by decide)
    exact (hfound _ q hq).2 ["self", "crate"] "app::db::Tag" (by decide) rfl hpath.isBare
      (by decide)

end Extraction

end DaoGen
