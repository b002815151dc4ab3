import DaoGen.Text.Fragment
import Mathlib.Data.List.Basic

/-!
# Paths of names

Names joined by `::` are taken apart at its last place, and marks at the front of a path are removed
by their text. Both read back what was put together as long as no name has a colon in it.

## Main definitions

* `behind`: a path behind names that are each followed by `::`.
* `trimNames`: what removed prefixes leave of such names.

## Main results

* `lastSegment_append`: the last name of a path.
* `foldl_trimPrefix_behind`: what removed prefixes leave of a path.
-/
namespace DaoGen.Text

/-! ## Last names -/

theorem afterLastColons?_of_notMem {cs : List Char} (h : ':' ∉ cs) :
    afterLastColons? cs = none := by
  induction cs with
  | nil => rfl
  | cons c cs ih =>
    obtain ⟨hc, hcs⟩ := List.ne_and_not_mem_of_not_mem_cons h
    unfold afterLastColons?
    rw [ih hcs]
    dsimp only
    split
    · exact absurd rfl hc
    · rfl

theorem afterLastColons?_colons {last : List Char} (h : ':' ∉ last) :
    afterLastColons? (':' :: ':' :: last) = some last := by
  have hone : afterLastColons? (':' :: last) = none := by
    unfold afterLastColons?
    rw [afterLastColons?_of_notMem h]
    dsimp only
    split
    · exact absurd List.mem_cons_self h
    · rfl
  unfold afterLastColons?
  rw [hone]
  rfl

/-- What stands before a `::` makes no difference to what follows the last one. -/
theorem afterLastColons?_append {cs rest : List Char} (h : afterLastColons? cs = some rest)
    (before : List Char) : afterLastColons? (before ++ cs) = some rest := by
  induction before with
  | nil => exact h
  | cons c before ih =>
    rw [List.cons_append]
    unfold afterLastColons?
    rw [ih]

variable {path name : String}

theorem hasColons_of_notMem (h : ':' ∉ name.toList) : hasColons name = false := by
  rw [hasColons, afterLastColons?_of_notMem h]
  rfl

/-- A path of one name is its own last name. -/
theorem lastSegment_of_hasColons (h : hasColons path = false) : lastSegment path = path := by
  rw [lastSegment, Option.isSome_eq_false_iff.mp h |> Option.isNone_iff_eq_none.mp]

theorem lastSegment_append (path : String) (h : ':' ∉ name.toList) :
    lastSegment (path ++ "::" ++ name) = name := by
  have hafter : afterLastColons? (path ++ "::" ++ name).toList = some name.toList := by
    rw [String.append_assoc, String.toList_append, String.toList_append]
    exact afterLastColons?_append (afterLastColons?_colons h) _
  rw [lastSegment, hafter]
  exact String.ofList_toList

theorem hasColons_append (h : hasColons path = true) (before : String) :
    hasColons (before ++ path) = true := by
  obtain ⟨rest, hrest⟩ := Option.isSome_iff_exists.mp h
  rw [hasColons, String.toList_append, afterLastColons?_append hrest]
  rfl

/-! ## Prefixes -/

/-- A prefix is gone after as many rounds as there are characters. -/
theorem stripRepeated_congr {start : List Char} (hstart : start ≠ []) {m n : Nat} {cs : List Char}
    (hm : cs.length ≤ m) (hn : cs.length ≤ n) :
    stripRepeated start m cs = stripRepeated start n cs := by
  induction m generalizing n cs with
  | zero =>
    obtain rfl := List.length_eq_zero_iff.mp (Nat.le_zero.mp hm)
    cases n with
    | zero => rfl
    | succ n =>
      obtain ⟨c, start, rfl⟩ := List.exists_cons_of_ne_nil hstart
      rfl
  | succ m ih =>
    cases n with
    | zero =>
      obtain rfl := List.length_eq_zero_iff.mp (Nat.le_zero.mp hn)
      obtain ⟨c, start, rfl⟩ := List.exists_cons_of_ne_nil hstart
      rfl
    | succ n =>
      rw [stripRepeated, stripRepeated]
      split
      · next rest hrest =>
        have hcs := congrArg List.length (afterPrefix?_eq_some_iff.mp hrest)
        have hpos := List.length_pos_iff.mpr hstart
        rw [List.length_append] at hcs
        exact ih (by omega) (by omega)
      · rfl

theorem trimPrefix_append {start : String} (hstart : start ≠ "") (s : String) :
    trimPrefix start (start ++ s) = trimPrefix start s := by
  have hne : start.toList ≠ [] := fun h => hstart (String.toList_injective (by simpa using h))
  have hlength : (start ++ s).toList.length = start.toList.length + s.toList.length := by
    rw [String.toList_append, List.length_append]
  obtain ⟨fuel, hfuel⟩ : ∃ fuel, (start ++ s).toList.length = fuel + 1 :=
    Nat.exists_eq_succ_of_ne_zero (by have := List.length_pos_iff.mpr hne; omega)
  have hafter : afterPrefix? start.toList (start ++ s).toList = some s.toList :=
    afterPrefix?_eq_some_iff.mpr String.toList_append
  rw [trimPrefix, trimPrefix, hfuel, stripRepeated, hafter]
  dsimp only
  have hpos := List.length_pos_iff.mpr hne
  rw [stripRepeated_congr hne (by omega) (Nat.le_refl s.toList.length)]

theorem trimPrefix_of_not_prefix {start s : String} (h : ¬ start.toList <+: s.toList) :
    trimPrefix start s = s := by
  have hnone : afterPrefix? start.toList s.toList = none := by
    refine Option.eq_none_iff_forall_ne_some.mpr fun rest hrest => h ?_
    exact ⟨rest, (afterPrefix?_eq_some_iff.mp hrest).symm⟩
  rw [trimPrefix]
  cases s.toList.length with
  | zero => rw [stripRepeated, String.ofList_toList]
  | succ fuel => rw [stripRepeated, hnone, String.ofList_toList]

/-! ## Names at the front -/

/-- Whether a path begins with a name that `::` follows. -/
def StartsWith (name path : String) : Prop := (name ++ "::").toList <+: path.toList

theorem startsWith_append (name rest : String) : StartsWith name (name ++ "::" ++ rest) :=
  ⟨rest.toList, String.toList_append.symm⟩

theorem not_startsWith_of_notMem (h : ':' ∉ path.toList) : ¬ StartsWith name path := fun hstarts =>
  h (hstarts.subset (by simp))

/-- A path begins with one name only. -/
theorem eq_of_startsWith {first rest : String} (hname : ':' ∉ name.toList)
    (hfirst : ':' ∉ first.toList) (h : StartsWith name (first ++ "::" ++ rest)) : name = first := by
  -- both are what stands before the first colon
  have htake {text : String} (htext : ':' ∉ text.toList) (later : List Char) :
      (text.toList ++ ':' :: later).takeWhile (· ≠ ':') = text.toList := by
    have hall : ∀ c ∈ text.toList, decide (c ≠ ':') = true := fun c hc =>
      decide_eq_true fun heq => htext (heq ▸ hc)
    rw [List.takeWhile_append_of_pos hall, List.takeWhile_cons_of_neg (by simp), List.append_nil]
  obtain ⟨later, hlater⟩ := h
  have hpath : name.toList ++ ':' :: (':' :: later) =
      first.toList ++ ':' :: (':' :: rest.toList) := by
    simpa using hlater
  have hsame := congrArg (List.takeWhile (· ≠ ':')) hpath
  rw [htake hname, htake hfirst] at hsame
  exact String.toList_injective hsame

/-- A path behind names that are each followed by `::`. -/
def behind (names : List String) (path : String) : String :=
  names.foldr (fun name rest => name ++ "::" ++ rest) path

theorem hasColons_behind (h : hasColons path = true) (names : List String) :
    hasColons (behind names path) = true := by
  induction names with
  | nil => exact h
  | cons name names ih => exact hasColons_append ih (name ++ "::")

/-- A removed prefix leaves the names at the front from the first other one on. -/
theorem trimPrefix_behind {names : List String} (hnames : ∀ name ∈ names, ':' ∉ name.toList)
    (hname : ':' ∉ name.toList) (hpath : ¬ StartsWith name path) :
    trimPrefix (name ++ "::") (behind names path) = behind (names.dropWhile (· = name)) path := by
  induction names with
  | nil => exact trimPrefix_of_not_prefix hpath
  | cons first names ih =>
    obtain ⟨hfirst, hrest⟩ := List.forall_mem_cons.mp hnames
    by_cases heq : first = name
    · subst heq
      rw [List.dropWhile_cons_of_pos (by simp), ← ih hrest]
      exact trimPrefix_append (by simp) _
    · rw [List.dropWhile_cons_of_neg (by simpa using heq)]
      refine trimPrefix_of_not_prefix fun hstarts => heq ?_
      exact (eq_of_startsWith hname hfirst hstarts).symm

/-- The names at the front without those that are removed, one name after another. -/
def trimNames (marks names : List String) : List String :=
  marks.foldl (fun rest mark => rest.dropWhile (· = mark)) names

theorem trimNames_suffix (marks names : List String) : trimNames marks names <:+ names := by
  induction marks generalizing names with
  | nil => exact List.suffix_rfl
  | cons mark marks ih => exact (ih _).trans (List.dropWhile_suffix _)

/-- Prefixes that are removed one after another leave a path behind what they leave of its names. -/
theorem foldl_trimPrefix_behind {marks names : List String}
    (hmarks : ∀ mark ∈ marks, ':' ∉ mark.toList ∧ ¬ StartsWith mark path)
    (hnames : ∀ name ∈ names, ':' ∉ name.toList) :
    marks.foldl (fun rest mark => trimPrefix (mark ++ "::") rest) (behind names path) =
      behind (trimNames marks names) path := by
  induction marks generalizing names with
  | nil => rfl
  | cons mark marks ih =>
    obtain ⟨hmark, hmarks⟩ := List.forall_mem_cons.mp hmarks
    have hleft : ∀ name ∈ names.dropWhile (· = mark), ':' ∉ name.toList := fun name hname =>
      hnames name ((List.dropWhile_suffix _).subset hname)
    rw [List.foldl_cons, trimPrefix_behind hnames hmark.1 hmark.2, ih hmarks hleft]
    rfl

end DaoGen.Text
