import DaoGen.Declaration.Collection
import DaoGen.Proofs.Pass
import Mathlib.Data.List.Nodup

/-!
# Files of units

Units are told apart by their identities but written to files. Different units of a pass have the
same file only if the names of their subjects clash: names of one kind that differ but have the
same words, or a database whose words are the module of another unit.
-/
namespace DaoGen

/-! ## Directories -/

/-- What is before and after the first slash of a text. -/
theorem Text.slash_inj_list {as bs as' bs' : List Char} (h : '/' ∉ as) (h' : '/' ∉ as')
    (heq : as ++ '/' :: bs = as' ++ '/' :: bs') : as = as' ∧ bs = bs' := by
  induction as generalizing as' with
  | nil => cases as' with
    | nil => exact ⟨rfl, (List.cons.inj heq).2⟩
    | cons a' as' => exact absurd ((List.cons.inj heq).1 ▸ List.mem_cons_self) h'
  | cons a as ih => cases as' with
    | nil => exact absurd ((List.cons.inj heq).1 ▸ List.mem_cons_self) h
    | cons a' as' =>
      obtain ⟨rfl, htail⟩ := List.cons.inj heq
      obtain ⟨rfl, rfl⟩ := ih (fun hin => h (List.mem_cons_of_mem a hin))
        (fun hin => h' (List.mem_cons_of_mem a hin)) htail
      exact ⟨rfl, rfl⟩

theorem Text.slash_inj {s t s' t' : String} (h : '/' ∉ s.toList) (h' : '/' ∉ s'.toList)
    (heq : s ++ "/" ++ t = s' ++ "/" ++ t') : s = s' ∧ t = t' := by
  have hlist := congrArg String.toList heq
  simp only [String.toList_append, List.append_assoc] at hlist
  obtain ⟨hs, ht⟩ := slash_inj_list h h' hlist
  exact ⟨String.toList_inj.mp hs, String.toList_inj.mp ht⟩

namespace Target

theorem slash_notMem_name (t : Target) : '/' ∉ t.name.toList := by cases t <;> decide

theorem name_injective : Function.Injective name := by
  intro t t' h
  cases t <;> cases t' <;> first | rfl | exact absurd h (by decide)

end Target

namespace Dialect

theorem slash_notMem_name (d : Dialect) : '/' ∉ d.name.toList := by cases d <;> decide

theorem name_injective : Function.Injective name := by
  intro d d' h
  cases d <;> cases d' <;> first | rfl | exact absurd h (by decide)

end Dialect

/-! ## Modules -/

namespace UnitKind

/-- The last character of the modules of a kind, if it is always the same. -/
def lastChar? : UnitKind → Option Char
  | .daoImpl => some 'l'
  | .schema => some 'a'
  | .database => none
  | .replication => some 'e'
  | .httpEndpoint => some 't'

theorem getLast?_module {kind : UnitKind} (h : kind ≠ .database) (subject : QualifiedName) :
    (kind.module subject).toList.getLast? = kind.lastChar? := by
  cases kind with
  | database => exact absurd rfl h
  | daoImpl | replication | httpEndpoint => simp [module, lastChar?]
  | schema =>
    change "schema".toList.getLast? = some 'a'
    decide

/-- Only a database can have a module of another kind. -/
theorem eq_of_module_eq {kind kind' : UnitKind} {subject subject' : QualifiedName}
    (h : kind.module subject = kind'.module subject') (hk : kind ≠ .database)
    (hk' : kind' ≠ .database) : kind = kind' := by
  have hlast : kind.lastChar? = kind'.lastChar? := by
    rw [← getLast?_module hk subject, ← getLast?_module hk' subject', h]
  cases kind <;> cases kind' <;> first | rfl | contradiction

/-- Modules of one kind are the same if the names have the same words. -/
theorem module_eq_module {kind : UnitKind} (h : kind ≠ .schema) {subject subject' : QualifiedName} :
    kind.module subject = kind.module subject' ↔
      Text.snakeCase subject.simple = Text.snakeCase subject'.simple := by
  cases kind with
  | schema => exact absurd rfl h
  | daoImpl | database | replication | httpEndpoint => simp [module]

end UnitKind

/-! ## Files -/

namespace UnitId

/-- The place of a unit in the directory of its target. -/
def file (id : UnitId) : String :=
  match id.dialect with
  | some dialect => dialect.name ++ "/" ++ id.module
  | none => id.module

theorem path_eq (id : UnitId) : id.path = id.target.name ++ "/" ++ (id.file ++ ".rs") := by
  unfold path file
  split <;> simp [String.append_assoc, *]

theorem path_eq_path {id id' : UnitId} :
    id.path = id'.path ↔ id.target = id'.target ∧ id.file = id'.file := by
  constructor
  · intro h
    rw [path_eq, path_eq] at h
    obtain ⟨htarget, hfile⟩ := Text.slash_inj (Target.slash_notMem_name _)
      (Target.slash_notMem_name _) h
    exact ⟨Target.name_injective htarget, (String.append_left_inj ".rs").mp hfile⟩
  · rintro ⟨htarget, hfile⟩
    rw [path_eq, path_eq, htarget, hfile]

/-- The names of two units that differ have the same file. -/
inductive Clash : UnitId → UnitId → Prop where
  /-- the same words in different names of a kind -/
  | words {target dialect kind subject subject'} (hkind : kind ≠ .schema)
    (hne : subject.simple ≠ subject'.simple)
    (h : Text.snakeCase subject.simple = Text.snakeCase subject'.simple) :
    Clash ⟨target, dialect, subject, kind⟩ ⟨target, dialect, subject', kind⟩
  /-- a database with the words of a module of another kind -/
  | database {target dialect kind subject subject'} (hkind : kind ≠ .database)
    (h : kind.module subject = Text.snakeCase subject'.simple) :
    Clash ⟨target, dialect, subject, kind⟩ ⟨target, dialect, subject', .database⟩
  /-- a module that is one of a database in the directory of a dialect -/
  | directory {target dialect subject subject'}
    (h : UnitKind.replication.module subject =
      dialect.name ++ "/" ++ Text.snakeCase subject'.simple) :
    Clash ⟨target, none, subject, .replication⟩ ⟨target, some dialect, subject', .database⟩

namespace Clash

theorem ne {id id' : UnitId} (h : Clash id id') : id ≠ id' := by
  rintro rfl
  cases h with
  | words _ hne => exact hne rfl
  | database hkind => exact hkind rfl

theorem path_eq {id id' : UnitId} (h : Clash id id') : id.path = id'.path := by
  rw [path_eq_path]
  cases h with
  | words hkind _ h =>
    refine ⟨rfl, ?_⟩
    simp only [file, module, (UnitKind.module_eq_module hkind).mpr h]
  | database _ h =>
    refine ⟨rfl, ?_⟩
    simp only [file, module, h]
    rfl
  | directory h => exact ⟨rfl, h⟩

end Clash

end UnitId

namespace Model

namespace HasUnit

variable {model : Model} {target target' : Target} {id id' : UnitId}

/-- The units of replication are the ones for all dialects. -/
theorem dialect_eq_none (h : model.HasUnit target id) :
    id.dialect = none ↔ id.kind = .replication := by
  cases h <;> simp

/-- The simple names of a kind tell its subjects apart. -/
theorem subject_eq (hclosed : model.Closed) (h : model.HasUnit target id)
    (h' : model.HasUnit target' id') (hkind : id.kind = id'.kind)
    (hsimple : id.subject.simple = id'.subject.simple) : id.subject = id'.subject := by
  have hdao : ∀ dao ∈ model.daos, ∀ dao' ∈ model.daos,
      dao.name.simple = dao'.name.simple → dao.name = dao'.name := fun dao hd dao' hd' heq =>
    congrArg Dao.name (List.inj_on_of_nodup_map hclosed.dao_names hd hd' heq)
  have hdatabase : ∀ db ∈ model.databases, ∀ db' ∈ model.databases,
      db.name.simple = db'.name.simple → db.name = db'.name := fun db hd db' hd' heq =>
    congrArg Database.name (List.inj_on_of_nodup_map hclosed.database_names hd hd' heq)
  cases h <;> cases h' <;> first | contradiction | rfl | skip
  case database.database hd _ _ hd' => exact hdatabase _ hd _ hd' hsimple
  all_goals exact hdao _ ‹_› _ ‹_› hsimple

/-- Units with the same module in the same directory are the same, or their names clash. -/
theorem eq_or_clash (hclosed : model.Closed) (h : model.HasUnit target id)
    (h' : model.HasUnit target' id') (htarget : id.target = id'.target)
    (hdialect : id.dialect = id'.dialect) (hmodule : id.module = id'.module) :
    id = id' ∨ id.Clash id' ∨ id'.Clash id := by
  have hsubject := subject_eq hclosed h h'
  obtain ⟨target, dialect, subject, kind⟩ := id
  obtain ⟨_, _, subject', kind'⟩ := id'
  cases htarget
  cases hdialect
  by_cases hkind : kind = kind'
  · subst hkind
    by_cases hsimple : subject.simple = subject'.simple
    · obtain rfl : subject = subject' := hsubject rfl hsimple
      exact .inl rfl
    · have hschema : kind ≠ .schema := by
        rintro rfl
        cases h
        cases h'
        exact hsimple rfl
      exact .inr (.inl (.words hschema hsimple ((UnitKind.module_eq_module hschema).mp hmodule)))
  · by_cases hdatabase : kind = .database
    · subst hdatabase
      exact .inr (.inr (.database (Ne.symm hkind) hmodule.symm))
    · by_cases hdatabase' : kind' = .database
      · subst hdatabase'
        exact .inr (.inl (.database hkind hmodule))
      · exact absurd (UnitKind.eq_of_module_eq hmodule hdatabase hdatabase') hkind

/-- A unit for all dialects has the file of one for a dialect only if that is of a database. -/
theorem clash_of_directory {dialect : Dialect} (h : model.HasUnit target id)
    (h' : model.HasUnit target' id') (htarget : id.target = id'.target) (hnone : id.dialect = none)
    (hsome : id'.dialect = some dialect) (hmodule : id.module = dialect.name ++ "/" ++ id'.module) :
    id.Clash id' := by
  have hkind := h.dialect_eq_none.mp hnone
  have hkind' : id'.kind ≠ .replication := fun hrep => by
    rw [h'.dialect_eq_none.mpr hrep] at hsome
    cases hsome
  obtain ⟨target, _, subject, kind⟩ := id
  obtain ⟨_, _, subject', kind'⟩ := id'
  dsimp only at hnone hsome htarget hkind hkind'
  subst hnone hsome htarget hkind
  by_cases hdatabase : kind' = .database
  · subst hdatabase
    exact .directory hmodule
  · -- the last character of a file is that of its module
    have hreplication : UnitKind.replication ≠ .database := nofun
    have hlast := UnitKind.getLast?_module hreplication subject
    have hlast' := UnitKind.getLast?_module hdatabase subject'
    have hfile : UnitKind.replication.module subject =
      dialect.name ++ "/" ++ kind'.module subject' := hmodule
    rw [hfile, String.toList_append, List.getLast?_append, hlast'] at hlast
    cases kind' <;> simp_all [UnitKind.lastChar?]

end HasUnit

/-- Two units of closed models with the same file are the same, or their names clash. -/
theorem Closed.eq_or_clash_of_path_eq {model : Model} (hclosed : model.Closed)
    {target target' : Target} {id id' : UnitId} (h : model.HasUnit target id)
    (h' : model.HasUnit target' id') (hpath : id.path = id'.path) :
    id = id' ∨ id.Clash id' ∨ id'.Clash id := by
  obtain ⟨htarget, hfile⟩ := UnitId.path_eq_path.mp hpath
  unfold UnitId.file at hfile
  split at hfile
  · next dialect hdialect =>
    split at hfile
    · next dialect' hdialect' =>
      obtain ⟨hname, hmodule⟩ := Text.slash_inj (Dialect.slash_notMem_name _)
        (Dialect.slash_notMem_name _) hfile
      have heq : id.dialect = id'.dialect := by
        rw [hdialect, hdialect', Dialect.name_injective hname]
      exact h.eq_or_clash hclosed h' htarget heq hmodule
    · next hdialect' =>
      exact .inr (.inr (h'.clash_of_directory h htarget.symm hdialect' hdialect hfile.symm))
  · next hdialect =>
    split at hfile
    · next dialect' hdialect' =>
      exact .inr (.inl (h.clash_of_directory h' htarget hdialect hdialect' hfile))
    · next hdialect' =>
      exact h.eq_or_clash hclosed h' htarget (hdialect.trans hdialect'.symm) hfile

end Model

/-- No two units of a pass have the same file if and only if no names of units clash. -/
theorem runPass_paths_nodup_iff (options : Options) (source : DeclarationSource) :
    ((runPass options Emitter.all source).units.map (·.id.path)).Nodup ↔
      ∀ u ∈ (runPass options Emitter.all source).units,
        ∀ v ∈ (runPass options Emitter.all source).units, ¬ u.id.Clash v.id := by
  obtain ⟨hids, hhas⟩ := runPass_units options Emitter.all source
  have hclosed := Model.Closed.ofSource source
  constructor
  · intro hpaths u hu v hv hclash
    have heq : u = v := List.inj_on_of_nodup_map hpaths hu hv hclash.path_eq
    exact hclash.ne (congrArg SourceUnit.id heq)
  · intro hfree
    refine (List.nodup_map_iff_inj_on hids.of_map).mpr fun u hu v hv hpath => ?_
    obtain ⟨_, _, hu'⟩ := hhas u hu
    obtain ⟨_, _, hv'⟩ := hhas v hv
    rcases hclosed.eq_or_clash_of_path_eq hu' hv' hpath with hid | hclash | hclash
    · exact List.inj_on_of_nodup_map hids hu hv hid
    · exact absurd hclash (hfree u hu v hv)
    · exact absurd hclash (hfree v hv u hu)

/-- Simple names of DAOs that differ can have the same words, and then both DAOs are modeled and the
second one overwrites the files of the first. -/
theorem runPass_paths_not_nodup :
    ∃ c, Collection.add {} "db.rs" "db"
        "#[dao] pub trait TagDao \x7b\x7d\n#[dao] pub trait Tag_Dao \x7b\x7d" = .ok c ∧
      ¬ ((runPass { targets := [.mobile] } Emitter.all c.source).units.map (·.id.path)).Nodup := by
  have hany : (Collection.add {} "db.rs" "db"
      "#[dao] pub trait TagDao \x7b\x7d\n#[dao] pub trait Tag_Dao \x7b\x7d").toOption.any
        (fun c => decide ¬ ((runPass { targets := [.mobile] } Emitter.all
          c.source).units.map (·.id.path)).Nodup) = true := by
    decide +kernel
  obtain ⟨c, hc, hclash⟩ := Except.exists_of_any hany
  exact ⟨c, hc, of_decide_eq_true hclash⟩

end DaoGen
