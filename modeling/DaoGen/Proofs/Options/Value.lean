import DaoGen.Options
import DaoGen.Proofs.Failure
import DaoGen.Proofs.Text.AnyCase
import Mathlib.Data.List.Perm.Basic
import Mathlib.Data.Set.Basic

/-!
# Values of options

What the value of each option says, and why a value is refused. A list of targets says which targets
are in it: not their order, nor how often and by which of its names each of them is given.

## Main definitions

* `Target.IsNamedBy`: which texts stand for a target.
* `Options.ListsTargets`: which targets a value lists.

## Main results

* `Options.parseTargets_eq_ok_iff`, `Options.parseTargets_eq_error_iff`: lists of targets.
* `Options.parseSwitch_eq_ok_iff`: yes and no.
* `Options.parseRuntime_eq_ok_iff`: names of crates.
-/
namespace DaoGen

open Text

theorem Text.pieces_eq_splitOn (mark : Char) (cs : List Char) :
    pieces mark cs = cs.splitOn mark := by
  induction cs with
  | nil => rfl
  | cons c cs ih =>
    rw [pieces, List.splitOn, List.splitOnP_cons_eq_if_modifyHead, ← List.splitOn, ← ih]
    by_cases hc : c = mark
    · simp [hc]
    · rw [if_neg hc, if_neg (by simpa using hc)]
      cases hpieces : pieces mark cs with
      | nil => exact absurd hpieces (pieces_ne_nil mark cs)
      | cons piece rest => rfl

/-! ## Targets -/

namespace Target

/-- The names of a target, in lower case. -/
def names : Target → List String
  | .jvm => ["jvm"]
  | .mobile => ["mobile", "android"]
  | .browser => ["browser", "js", "wasm"]

/-- A text names a target: it is one of its names in any letter case, with blanks around it. -/
def IsNamedBy (t : Target) (cs : List Char) : Prop := ∃ name ∈ t.names, IsSpelled name cs

/-- A text stands for no target and is not blank. -/
def IsUnknown (cs : List Char) : Prop := (∃ c ∈ cs, isBlank c = false) ∧ ∀ t, ¬ IsNamedBy t cs

theorem ofName?_eq_some_iff {written : String} {t : Target} :
    ofName? written = some t ↔ t.IsNamedBy written.toList := by
  have hlower : ofName? written = some t ↔ ∃ name ∈ t.names, lower (trim written) = name := by
    unfold ofName?
    split <;> next h => cases t <;> simp_all [names]
  have hnames : ∀ name ∈ t.names, name.toList.all isSettled = true := by
    cases t <;> decide
  rw [hlower]
  refine exists_congr fun name => and_congr_right fun hname => ?_
  exact lower_trim_eq_iff (List.all_eq_true.mp (hnames name hname))

instance (t : Target) (cs : List Char) : Decidable (t.IsNamedBy cs) :=
  decidable_of_iff (ofName? (String.ofList cs) = some t) (by
    rw [ofName?_eq_some_iff, String.toList_ofList])

instance (cs : List Char) : Decidable (IsUnknown cs) :=
  decidable_of_iff (cs.any (!isBlank ·) = true ∧ ∀ t ∈ all, ¬ t.IsNamedBy cs) (by
    simp [IsUnknown, mem_all])

variable {t u : Target} {cs : List Char}

theorem IsNamedBy.unique (ht : t.IsNamedBy cs) (hu : u.IsNamedBy cs) : t = u := by
  rw [← String.toList_ofList (l := cs), ← ofName?_eq_some_iff] at ht hu
  exact Option.some.inj (ht.symm.trans hu)

theorem IsNamedBy.not_blank (h : t.IsNamedBy cs) : ∃ c ∈ cs, isBlank c = false := by
  by_contra hblank
  push Not at hblank
  have htrim : trim (String.ofList cs) = "" := by
    rw [trim_eq_empty_iff, String.toList_ofList]
    simpa using hblank
  rw [← String.toList_ofList (l := cs), ← ofName?_eq_some_iff, ofName?, htrim] at h
  cases h

end Target

namespace Options

variable {value : String}

/-- A value lists targets: each of its parts between commas is blank or names one of them, and each
of them is named. -/
structure ListsTargets (value : String) (targets : Set Target) : Prop where
  parts : ∀ part ∈ value.toList.splitOn ',',
    (∀ c ∈ part, isBlank c = true) ∨ ∃ t ∈ targets, t.IsNamedBy part
  named : ∀ t ∈ targets, ∃ part ∈ value.toList.splitOn ',', t.IsNamedBy part

theorem ListsTargets.unique {ts us : Set Target} (ht : ListsTargets value ts)
    (hu : ListsTargets value us) : ts = us := by
  have hsubset {ts us : Set Target} (ht : ListsTargets value ts) (hu : ListsTargets value us) :
      ts ⊆ us := by
    intro t hmem
    obtain ⟨part, hpart, hnamed⟩ := ht.named t hmem
    rcases hu.parts part hpart with hblank | ⟨u, hu, hnamed'⟩
    · obtain ⟨c, hc, hblank'⟩ := hnamed.not_blank
      rw [hblank c hc] at hblank'
      cases hblank'
    · exact hnamed.unique hnamed' ▸ hu
  exact Set.Subset.antisymm (hsubset ht hu) (hsubset hu ht)

theorem mem_listItems {item : String} :
    item ∈ listItems value ↔
      item.toList ∈ value.toList.splitOn ',' ∧ ∃ c ∈ item.toList, isBlank c = false := by
  rw [listItems, List.mem_filter, trim_bne_empty_iff, pieces_eq_splitOn, List.mem_map]
  refine and_congr_left fun _ => ⟨?_, fun h => ⟨_, h, String.ofList_toList⟩⟩
  rintro ⟨part, hpart, rfl⟩
  rwa [String.toList_ofList]

theorem listItems_eq_nil_iff :
    listItems value = [] ↔ ∀ part ∈ value.toList.splitOn ',', ∀ c ∈ part, isBlank c = true := by
  rw [List.eq_nil_iff_forall_not_mem]
  constructor
  · intro h part hpart c hc
    by_contra hblank
    refine h (String.ofList part) (mem_listItems.mpr ?_)
    rw [String.toList_ofList]
    exact ⟨hpart, c, hc, by simpa using hblank⟩
  · intro h item hitem
    obtain ⟨hpart, c, hc, hblank⟩ := mem_listItems.mp hitem
    rw [h _ hpart c hc] at hblank
    cases hblank

theorem parseTarget_eq_ok_iff {item : String} {t : Target} :
    parseTarget item = .ok t ↔ t.IsNamedBy item.toList := by
  rw [← Target.ofName?_eq_some_iff, parseTarget]
  cases Target.ofName? item <;> simp

theorem parseTarget_eq_error_iff {item : String} {e : OptionError} :
    parseTarget item = .error e ↔
      (∀ t, ¬ Target.IsNamedBy t item.toList) ∧ e = .unsupportedTarget item := by
  simp only [← Target.ofName?_eq_some_iff, parseTarget]
  cases Target.ofName? item <;> simp [eq_comm]

/-- Targets that are read from the items of a value are those that it lists. -/
theorem listsTargets_of_mapM {ts : List Target}
    (h : (listItems value).mapM parseTarget = .ok ts) : ListsTargets value {t | t ∈ ts} := by
  have hread := Except.forall₂_of_mapM h
  constructor
  · intro part hpart
    by_cases hblank : ∀ c ∈ part, isBlank c = true
    · exact .inl hblank
    · push Not at hblank
      have hitem : String.ofList part ∈ listItems value := by
        rw [mem_listItems, String.toList_ofList]
        exact ⟨hpart, by simpa using hblank⟩
      obtain ⟨t, ht, hnamed⟩ := hread.exists_right hitem
      rw [parseTarget_eq_ok_iff, String.toList_ofList] at hnamed
      exact .inr ⟨t, ht, hnamed⟩
  · intro t ht
    obtain ⟨item, hitem, hnamed⟩ := hread.exists_left ht
    exact ⟨_, (mem_listItems.mp hitem).1, parseTarget_eq_ok_iff.mp hnamed⟩

/-- Each item of a value that lists targets is read as one. -/
theorem ListsTargets.exists_mapM {targets : Set Target} (h : ListsTargets value targets) :
    ∃ found, (listItems value).mapM parseTarget = .ok found := by
  have hread : ((listItems value).mapM parseTarget).error? = none := by
    rw [Except.error?_mapM, List.findSome?_eq_none_iff]
    intro item hitem
    obtain ⟨hpart, c, hc, hblank⟩ := mem_listItems.mp hitem
    rcases h.parts _ hpart with hall | ⟨t, _, hnamed⟩
    · rw [hall c hc] at hblank
      cases hblank
    · rw [parseTarget_eq_ok_iff.mpr hnamed]
      rfl
  cases hresult : (listItems value).mapM parseTarget with
  | ok found => exact ⟨found, rfl⟩
  | error e =>
    rw [hresult] at hread
    cases hread

/-- Targets in table order, each once. -/
def IsInOrder (targets : List Target) : Prop := targets.Pairwise fun t u => t.rank < u.rank

theorem mem_normalizeTargets {ts : List Target} {t : Target} :
    t ∈ normalizeTargets ts ↔ t ∈ ts := by
  simp [normalizeTargets, Target.mem_all]

theorem isInOrder_all : IsInOrder Target.all := by
  unfold IsInOrder
  decide

theorem isInOrder_normalizeTargets (ts : List Target) : IsInOrder (normalizeTargets ts) :=
  isInOrder_all.sublist List.filter_sublist

/-- There is one way to put targets in order. -/
theorem IsInOrder.eq_of_mem_iff {ts us : List Target} (hts : IsInOrder ts) (hus : IsInOrder us)
    (h : ∀ t, t ∈ ts ↔ t ∈ us) : ts = us := by
  have hnodup {ts : List Target} (hts : IsInOrder ts) : ts.Nodup := by
    refine hts.imp ?_
    rintro t _ hlt rfl
    exact Nat.lt_irrefl _ hlt
  have hperm : ts.Perm us := (List.perm_ext_iff_of_nodup (hnodup hts) (hnodup hus)).mpr h
  refine hperm.eq_of_pairwise ?_ hts hus
  intro t u _ _ htu hut
  omega

/-- A value is read as the targets that it lists, in order, if there are any. -/
theorem parseTargets_eq_ok_iff {ts : List Target} :
    parseTargets value = .ok ts ↔
      ts ≠ [] ∧ IsInOrder ts ∧ ListsTargets value {t | t ∈ ts} := by
  constructor
  · intro h
    obtain ⟨found, hfound, h⟩ := Except.bind_eq_ok.mp h
    split at h
    · cases h
    · next hne =>
      cases h
      have hsame : {t | t ∈ normalizeTargets found} = {t | t ∈ found} :=
        Set.ext fun t => mem_normalizeTargets
      refine ⟨fun hnil => hne ?_, isInOrder_normalizeTargets found,
        hsame ▸ listsTargets_of_mapM hfound⟩
      rw [List.isEmpty_iff, List.eq_nil_iff_forall_not_mem]
      intro t ht
      rw [← mem_normalizeTargets, hnil] at ht
      cases ht
  · rintro ⟨hne, horder, hlists⟩
    obtain ⟨found, hfound⟩ := hlists.exists_mapM
    have hmem (t : Target) : t ∈ found ↔ t ∈ ts :=
      Set.ext_iff.mp ((listsTargets_of_mapM hfound).unique hlists) t
    have hnonempty : ¬ found.isEmpty = true := by
      rw [List.isEmpty_iff]
      rintro rfl
      exact hne (List.eq_nil_iff_forall_not_mem.mpr fun t ht => by simpa using (hmem t).mpr ht)
    refine Except.bind_eq_ok.mpr ⟨found, hfound, ?_⟩
    rw [if_neg hnonempty]
    refine congrArg Except.ok ((isInOrder_normalizeTargets found).eq_of_mem_iff horder fun t => ?_)
    rw [mem_normalizeTargets, hmem]

/-- What is wrong with the items of a value is wrong with its first part that stands for nothing. -/
theorem error?_mapM_parseTarget :
    ((listItems value).mapM parseTarget).error? = (value.toList.splitOn ',').findSome? fun part =>
      if Target.IsUnknown part then some (.unsupportedTarget (String.ofList part)) else none := by
  rw [Except.error?_mapM, listItems, pieces_eq_splitOn]
  induction value.toList.splitOn ',' with
  | nil => rfl
  | cons part parts ih =>
    rw [List.map_cons, List.filter_cons, List.findSome?_cons, ← ih]
    have hblank : (trim (String.ofList part) != "") = true ↔ ∃ c ∈ part, isBlank c = false := by
      rw [trim_bne_empty_iff, String.toList_ofList]
    have herror (e : OptionError) : parseTarget (String.ofList part) = .error e ↔
        (∀ t, ¬ Target.IsNamedBy t part) ∧ e = .unsupportedTarget (String.ofList part) := by
      rw [parseTarget_eq_error_iff, String.toList_ofList]
    by_cases hunknown : Target.IsUnknown part
    · rw [if_pos (hblank.mpr hunknown.1), if_pos hunknown, List.findSome?_cons,
        (herror _).mpr ⟨hunknown.2, rfl⟩]
      rfl
    · rw [if_neg hunknown]
      by_cases hpart : ∃ c ∈ part, isBlank c = false
      · rw [if_pos (hblank.mpr hpart), List.findSome?_cons]
        cases hread : parseTarget (String.ofList part) with
        | ok t => rfl
        | error e => exact absurd ⟨hpart, ((herror e).mp hread).1⟩ hunknown
      · rw [if_neg (mt hblank.mp hpart)]

/-- A value is refused for its first part that stands for nothing, or as it is all blank. -/
theorem parseTargets_eq_error_iff {e : OptionError} :
    parseTargets value = .error e ↔
      (∃ before part after, value.toList.splitOn ',' = before ++ part :: after ∧
        (∀ earlier ∈ before, ¬ Target.IsUnknown earlier) ∧ Target.IsUnknown part ∧
        e = .unsupportedTarget (String.ofList part)) ∨
      (∀ part ∈ value.toList.splitOn ',', ∀ c ∈ part, isBlank c = true) ∧
        e = .invalidValue targetsKey value := by
  rw [parseTargets, Except.bind_eq_error]
  refine or_congr ?_ ?_
  · rw [← Except.error?_eq_some, error?_mapM_parseTarget, List.findSome?_eq_some_iff]
    refine exists₃_congr fun before part after => and_congr_right fun _ => ?_
    have hbefore : (∀ earlier ∈ before, (if Target.IsUnknown earlier then
          some (OptionError.unsupportedTarget (String.ofList earlier)) else none) = none) ↔
        ∀ earlier ∈ before, ¬ Target.IsUnknown earlier := by
      simp
    rw [hbefore]
    by_cases hpart : Target.IsUnknown part
    · simp [hpart, and_comm, eq_comm]
    · simp [hpart]
  · rw [← listItems_eq_nil_iff]
    constructor
    · rintro ⟨found, hfound, h⟩
      split at h
      · next hempty =>
        cases h
        rw [List.isEmpty_iff.mp hempty] at hfound
        exact ⟨List.forall₂_nil_right_iff.mp (Except.forall₂_of_mapM hfound), rfl⟩
      · cases h
    · rintro ⟨hnil, rfl⟩
      exact ⟨[], by rw [hnil]; rfl, rfl⟩

/-! ## Switches -/

/-- The words for yes and for no. -/
def switchWords : Bool → List String
  | true => ["true", "1", "yes"]
  | false => ["false", "0", "no"]

theorem parseSwitch_eq_ok_iff {key : String} {b : Bool} :
    parseSwitch key value = .ok b ↔
      ∃ word ∈ switchWords b, value.toList.map Char.toLower = word.toList := by
  have hlower : parseSwitch key value = .ok b ↔ ∃ word ∈ switchWords b, lower value = word := by
    unfold parseSwitch
    split <;> next h => cases b <;> simp_all [switchWords]
  have hwords : ∀ word ∈ switchWords b, word.toList.all isSettled = true := by
    cases b <;> decide
  rw [hlower]
  refine exists_congr fun word => and_congr_right fun hword => ?_
  rw [← lowerList_eq_iff (List.all_eq_true.mp (hwords word hword)), lower, ← String.toList_inj,
    String.toList_ofList]

theorem parseSwitch_failsOnly (key : String) :
    Except.FailsOnly (· = .invalidValue key value) (parseSwitch key value) := by
  unfold parseSwitch
  split
  case h_7 => exact .error rfl
  all_goals exact .ok _

/-! ## Names of crates -/

theorem parseRuntime_eq_ok_iff {key name : String} :
    parseRuntime key value = .ok name ↔ ¬ "r#".toList <+: (trimPrefix "::" value).toList ∧
      Code.parseName (trimPrefix "::" value) = some name := by
  have hraw : (stripPrefix? "r#" (trimPrefix "::" value)).isSome = true ↔
      "r#".toList <+: (trimPrefix "::" value).toList := by
    rw [stripPrefix?, Option.isSome_map, Option.isSome_iff_exists]
    simp only [afterPrefix?_eq_some_iff, List.prefix_iff_exists_eq_append]
  rw [← hraw, parseRuntime]
  split
  · next h => simp [h]
  · next h =>
    rw [and_iff_right h]
    cases Code.parseName (trimPrefix "::" value) <;> simp

theorem parseRuntime_failsOnly (key : String) :
    Except.FailsOnly (· = .invalidValue key value) (parseRuntime key value) := by
  unfold parseRuntime
  dsimp only
  split
  · exact .error rfl
  · split
    · exact .ok _
    · exact .error rfl

end Options

end DaoGen
