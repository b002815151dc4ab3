import DaoGen.Proofs.Text.SnakeCase

/-!
# Case forms of names in ASCII

In ASCII all case forms of a name are made of its words in lower case: snake case joins them by
underscores, camel case capitalizes all but the first, and Pascal case capitalizes all. Each form
forgets more than the one before it, as Pascal case no longer tells where a number ends or a word is
missing. From conventional names, whose words are small letters with perhaps a number at the end, it
takes nothing: they are read back from it.

## Main definitions

* `loweredWords`: the words of a name in lower case.
* `IsConventional`: words with numbers joined by single underscores.

## Main results

* `camelCase_eq_of_snakeCase_eq`, `pascalCase_eq_of_camelCase_eq`: what forms forget.
* `pascalCase_injOn`: conventional names are told apart by their Pascal case.
-/
namespace DaoGen.Text

/-! ## Characters -/

/-- Text of one line in ASCII. -/
def IsAscii (cs : List Char) : Prop := ∀ c ∈ cs, c.toNat < 0x80 ∧ c ≠ '\n'

section Characters

variable {c : Char}

/-- Lowercasing comes to the same before uppercasing, and stays in one line of ASCII. -/
theorem case_of_ascii (h : c.toNat < 0x80) :
    c.toLower.toUpper = c.toUpper ∧ c.toUpper.toUpper = c.toUpper ∧
      (c.toLower = '_' → c = '_') ∧ c.toLower.toNat < 0x80 ∧ (c.toLower = '\n' → c = '\n') := by
  have hall : ∀ n < 0x80, let c := Char.ofNat n;
      c.toLower.toUpper = c.toUpper ∧ c.toUpper.toUpper = c.toUpper ∧
        (c.toLower = '_' → c = '_') ∧ c.toLower.toNat < 0x80 ∧
        (c.toLower = '\n' → c = '\n') := by decide +kernel
  simpa using hall c.toNat h

/-- A small letter is a letter of a word, and can be told from its capital. -/
theorem kind_of_isLower (h : c.isLower = true) : c.toNat < 0x80 ∧ c ≠ '\n' ∧
    ClusterKind.of [c] = .lower ∧ c.toLower = c ∧ c.isUpper = false ∧
      c.toUpper.isUpper = true ∧ c.toUpper.toLower = c := by
  have hall : ∀ n < 0x80, let c := Char.ofNat n; c.isLower = true → c ≠ '\n' ∧
      ClusterKind.of [c] = .lower ∧ c.toLower = c ∧ c.isUpper = false ∧
        c.toUpper.isUpper = true ∧ c.toUpper.toLower = c := by decide +kernel
  have hcode : c.toNat < 0x80 := by
    change (decide ('a'.val ≤ c.val) && decide (c.val ≤ 'z'.val)) = true at h
    have hle : c.toNat ≤ 'z'.toNat := of_decide_eq_true (Bool.and_eq_true_iff.mp h).2
    exact Nat.lt_of_le_of_lt hle (by decide)
  exact ⟨hcode, by simpa [h] using hall c.toNat hcode⟩

/-- A digit has no case. -/
theorem kind_of_isDigit (h : c.isDigit = true) : c.toNat < 0x80 ∧ c ≠ '\n' ∧
    ClusterKind.of [c] = .digit ∧ c.toLower = c ∧ c.isUpper = false ∧ c.toUpper = c := by
  have hall : ∀ n < 0x80, let c := Char.ofNat n; c.isDigit = true → c ≠ '\n' ∧
      ClusterKind.of [c] = .digit ∧ c.toLower = c ∧ c.isUpper = false ∧ c.toUpper = c := by
    decide +kernel
  have hcode : c.toNat < 0x80 := by
    change (decide ('0'.val ≤ c.val) && decide (c.val ≤ '9'.val)) = true at h
    have hle : c.toNat ≤ '9'.toNat := of_decide_eq_true (Bool.and_eq_true_iff.mp h).2
    exact Nat.lt_of_le_of_lt hle (by decide)
  exact ⟨hcode, by simpa [h] using hall c.toNat hcode⟩

end Characters

/-! ## Words -/

section Words

variable {cs : List Char}

theorem IsAscii.of_cons {c : Char} (h : IsAscii (c :: cs)) : IsAscii cs := fun d hd =>
  h d (List.mem_cons_of_mem _ hd)

/-- Nothing joins two characters of ASCII in one line. -/
theorem joins_eq_false {a b : Char} (ha : a.toNat < 0x80) (hb : b.toNat < 0x80) (hline : b ≠ '\n')
    (before : Bool) : joins before a b = false := by
  have hjoiner : a ≠ joiner := by
    rintro rfl
    exact absurd ha (by decide)
  simp [joins, hline, hjoiner, attachesBackward, attachesForward, Nat.not_le.mpr ha,
    Nat.not_le.mpr hb]

theorem clustersAfter_of_isAscii (h : IsAscii cs) (before : Bool) :
    clustersAfter before cs = cs.map fun c => [c] := by
  induction cs generalizing before with
  | nil => rfl
  | cons a cs ih =>
    rw [clustersAfter, ih h.of_cons]
    cases cs with
    | nil => rfl
    | cons b cs =>
      obtain ⟨hb, hline⟩ := h b (by simp)
      simp [joins_eq_false (h a List.mem_cons_self).1 hb hline]

theorem lowerList_of_isAscii (h : IsAscii cs) : lowerList cs = cs.map Char.toLower :=
  (Lowers.lowerAfter [] cs).eq_map fun c hc => (h c hc).1

theorem lowerList_eq_self (h : IsAscii cs) (hlower : ∀ c ∈ cs, c.toLower = c) :
    lowerList cs = cs := by
  rw [lowerList_of_isAscii h]
  exact (List.map_congr_left hlower).trans (List.map_id cs)

/-- A word with its first character in upper case. -/
def raise : List Char → List Char
  | [] => []
  | c :: cs => c.toUpper :: cs

theorem capitalize_of_isAscii (h : IsAscii cs) : capitalize cs = raise (lowerList cs) := by
  rw [lowerList_of_isAscii h, capitalize, clusters, clustersAfter_of_isAscii h]
  cases cs with
  | nil => rfl
  | cons c cs =>
    have hc := (h c List.mem_cons_self).1
    have hflatten : (cs.map fun c => [c]).flatten = cs := by
      rw [← clustersAfter_of_isAscii h.of_cons false]
      exact flatten_clusters cs
    simp only [List.map_cons, hflatten, lowerList_of_isAscii h.of_cons, raise,
      (case_of_ascii hc).1]
    simp [upperList, upperChar, hc]

/-- What stands in a word was in the name, and is no separator. -/
theorem mem_of_mem_wordsFrom {current word : List Char} {clusters : List (List Char)}
    (h : word ∈ wordsFrom current clusters) {c : Char} (hc : c ∈ word) :
    c ∈ current ∨ ∃ cluster ∈ clusters, ClusterKind.of cluster ≠ .separator ∧ c ∈ cluster := by
  induction clusters generalizing current word with
  | nil => exact .inl (List.mem_singleton.mp h ▸ hc)
  | cons cluster rest ih =>
    have hlater {current : List Char} (h : word ∈ wordsFrom current rest) :
        c ∈ current ∨ ∃ cluster' ∈ cluster :: rest,
          ClusterKind.of cluster' ≠ .separator ∧ c ∈ cluster' := by
      rcases ih h hc with hin | ⟨cluster', hmem, hrest⟩
      · exact .inl hin
      · exact .inr ⟨cluster', List.mem_cons_of_mem _ hmem, hrest⟩
    rw [wordsFrom] at h
    split at h
    · rcases List.mem_cons.mp h with rfl | h
      · exact .inl hc
      · exact .inr ((hlater h).resolve_left List.not_mem_nil)
    · next hseparator =>
      have hfirst : c ∈ current ++ cluster → c ∈ current ∨ ∃ cluster' ∈ cluster :: rest,
          ClusterKind.of cluster' ≠ .separator ∧ c ∈ cluster' := fun hin =>
        (List.mem_append.mp hin).imp_right fun hin =>
          ⟨cluster, List.mem_cons_self, hseparator, hin⟩
      split at h
      · rcases List.mem_cons.mp h with rfl | h
        · exact hfirst hc
        · exact .inr ((hlater h).resolve_left List.not_mem_nil)
      · rcases hlater h with hin | hin
        · exact hfirst hin
        · exact .inr hin

/-- Pascal case is made of characters of identifiers if the name is. -/
theorem isIdentifierContinue_pascalCase {name : String}
    (hname : ∀ c ∈ name.toList, isIdentifierContinue c = true) :
    ∀ d ∈ (pascalCase name).toList, isIdentifierContinue d = true := by
  intro d hd
  rw [pascalCase, String.toList_ofList] at hd
  obtain ⟨form, hform, hd⟩ := List.mem_flatten.mp hd
  obtain ⟨word, hword, rfl⟩ := List.mem_map.mp hform
  have hchars : ∀ c ∈ word, isIdentifierContinue c = true := by
    intro c hc
    rcases mem_of_mem_wordsFrom hword hc with hnone | ⟨cluster, hcluster, _, hin⟩
    · cases hnone
    · have hflat : c ∈ (clusters name.toList).flatten :=
        List.mem_flatten.mpr ⟨cluster, hcluster, hin⟩
      rw [flatten_clusters] at hflat
      exact hname c hflat
  have hflat := flatten_clusters word
  unfold capitalize at hd
  split at hd
  · cases hd
  · next first rest heq =>
    rw [heq, List.flatten_cons] at hflat
    rw [← hflat] at hchars
    obtain ⟨hfirst, hrest⟩ := List.forall_mem_append.mp hchars
    rcases List.mem_append.mp hd with hd | hd
    · exact isIdentifierContinue_of_mem_upperList hfirst d hd
    · exact (Lowers.lowerAfter [] rest.flatten).isIdentifierContinue hrest d hd

/-- The words of a name in lower case. -/
def loweredWords (s : String) : List (List Char) := (wordsOf s).map lowerList

variable {s a b : String}

theorem isAscii_of_mem_wordsOf (h : IsAscii s.toList) :
    ∀ word ∈ wordsOf s, IsAscii word ∧ '_' ∉ word := by
  intro word hword
  have hmem (c : Char) (hc : c ∈ word) : c ∈ s.toList ∧ c ≠ '_' := by
    rcases mem_of_mem_wordsFrom hword hc with hnone | ⟨cluster, hcluster, hkind, hin⟩
    · cases hnone
    · rw [clusters, clustersAfter_of_isAscii h] at hcluster
      obtain ⟨d, hd, rfl⟩ := List.mem_map.mp hcluster
      obtain rfl := List.mem_singleton.mp hin
      refine ⟨hd, ?_⟩
      rintro rfl
      exact hkind rfl
  exact ⟨fun c hc => h c (hmem c hc).1, fun hc => (hmem '_' hc).2 rfl⟩

end Words

/-! ## Forms -/

section Forms

variable {s a b : String}

/-- Words put together with capitals where the later ones begin. -/
def inCamel : List (List Char) → List Char
  | [] => []
  | first :: rest => first ++ (rest.map raise).flatten

theorem map_capitalize {words : List (List Char)} (h : ∀ word ∈ words, IsAscii word) :
    words.map capitalize = (words.map lowerList).map raise := by
  rw [List.map_map]
  exact List.map_congr_left fun word hword => capitalize_of_isAscii (h word hword)

theorem toList_camelCase (h : IsAscii s.toList) :
    (camelCase s).toList = inCamel (loweredWords s) := by
  have hwords := fun word hword => (isAscii_of_mem_wordsOf h word hword).1
  unfold camelCase loweredWords
  cases heq : wordsOf s with
  | nil => rfl
  | cons first rest =>
    rw [heq] at hwords
    rw [String.toList_ofList, map_capitalize (List.forall_mem_cons.mp hwords).2]
    rfl

/-- Capitalized words begin with no small letter. -/
theorem raise_flatten {words : List (List Char)} (h : ∀ word ∈ words, IsAscii word) :
    raise (words.map raise).flatten = (words.map raise).flatten := by
  induction words with
  | nil => rfl
  | cons word words ih =>
    obtain ⟨hword, hwords⟩ := List.forall_mem_cons.mp h
    cases word with
    | nil => exact ih hwords
    | cons c word =>
      have hc := (hword c List.mem_cons_self).1
      simp [raise, (case_of_ascii hc).2.1]

theorem isAscii_lowerList {cs : List Char} (h : IsAscii cs) : IsAscii (lowerList cs) := by
  rw [lowerList_of_isAscii h]
  intro c hc
  obtain ⟨d, hd, rfl⟩ := List.mem_map.mp hc
  obtain ⟨hcode, hline⟩ := h d hd
  obtain ⟨_, _, _, hlower, hsame⟩ := case_of_ascii hcode
  exact ⟨hlower, fun heq => hline (hsame heq)⟩

theorem isAscii_of_mem_loweredWords (h : IsAscii s.toList) :
    ∀ word ∈ loweredWords s, IsAscii word ∧ '_' ∉ word := by
  intro lowered hlowered
  obtain ⟨word, hword, rfl⟩ := List.mem_map.mp hlowered
  obtain ⟨hascii, hplain⟩ := isAscii_of_mem_wordsOf h word hword
  refine ⟨isAscii_lowerList hascii, fun hmem => ?_⟩
  rw [lowerList_of_isAscii hascii] at hmem
  obtain ⟨c, hc, hlower⟩ := List.mem_map.mp hmem
  exact hplain ((case_of_ascii (hascii c hc).1).2.2.1 hlower ▸ hc)

/-- Pascal case is camel case with its first character in upper case. -/
theorem toList_pascalCase (h : IsAscii s.toList) :
    (pascalCase s).toList = raise (camelCase s).toList := by
  have hwords := fun word hword => (isAscii_of_mem_wordsOf h word hword).1
  have hlowered := fun word hword => (isAscii_of_mem_loweredWords h word hword).1
  rw [toList_camelCase h, pascalCase, String.toList_ofList, map_capitalize hwords]
  change ((loweredWords s).map raise).flatten = _
  cases heq : loweredWords s with
  | nil => rfl
  | cons first rest =>
    rw [heq] at hlowered
    have hrest := (List.forall_mem_cons.mp hlowered).2
    cases first with
    | nil => exact (raise_flatten hrest).symm
    | cons c first => simp [inCamel, raise]

/-- Names with the same snake case have the same words. -/
theorem loweredWords_eq_of_snakeCase_eq (ha : IsAscii a.toList) (hb : IsAscii b.toList)
    (h : snakeCase a = snakeCase b) : loweredWords a = loweredWords b := by
  have hsplit {s : String} (hs : IsAscii s.toList) :
      (snakeCase s).toList.splitOn '_' = loweredWords s := by
    have hplain : ∀ word ∈ loweredWords s, '_' ∉ word := fun word hword =>
      (isAscii_of_mem_loweredWords hs word hword).2
    have hne : loweredWords s ≠ [] := by simp [loweredWords, wordsOf, wordsFrom_ne_nil]
    rw [toList_snakeCase]
    exact List.splitOn_intercalate '_' hplain hne
  rw [← hsplit ha, h, hsplit hb]

theorem camelCase_eq_of_snakeCase_eq (ha : IsAscii a.toList) (hb : IsAscii b.toList)
    (h : snakeCase a = snakeCase b) : camelCase a = camelCase b := by
  refine String.toList_injective ?_
  rw [toList_camelCase ha, toList_camelCase hb, loweredWords_eq_of_snakeCase_eq ha hb h]

theorem pascalCase_eq_of_camelCase_eq (ha : IsAscii a.toList) (hb : IsAscii b.toList)
    (h : camelCase a = camelCase b) : pascalCase a = pascalCase b := by
  refine String.toList_injective ?_
  rw [toList_pascalCase ha, toList_pascalCase hb, h]

end Forms

/-! ## Conventional names -/

/-- A word of small letters, perhaps with a number at its end. -/
structure NumberedWord where
  letters : List Char
  number : List Char
  letters_ne_nil : letters ≠ []
  isLower : ∀ c ∈ letters, c.isLower = true
  isDigit : ∀ c ∈ number, c.isDigit = true

namespace NumberedWord

/-- The word of a text of small letters and one of digits. -/
def ofText (letters number : String) (h : letters.toList ≠ [] ∧
    letters.toList.all Char.isLower = true ∧ number.toList.all Char.isDigit = true) :
    NumberedWord where
  letters := letters.toList
  number := number.toList
  letters_ne_nil := h.1
  isLower := List.all_eq_true.mp h.2.1
  isDigit := List.all_eq_true.mp h.2.2

def chars (w : NumberedWord) : List Char := w.letters ++ w.number

/-- The words that a word with a number is cut into. -/
def parts (w : NumberedWord) : List (List Char) :=
  w.letters :: if w.number = [] then [] else [w.number]

end NumberedWord

/-- A name as the conventions have it: words with numbers joined by single underscores. -/
def IsConventional (name : String) : Prop :=
  ∃ words : List NumberedWord, words ≠ [] ∧
    name.toList = ['_'].intercalate (words.map NumberedWord.chars)

/-- Characters of one kind stay together up to where a word ends after them. -/
theorem wordsFrom_run {kind : ClusterKind} {cs : List Char} (hne : cs ≠ [])
    (hcs : ∀ c ∈ cs, ClusterKind.of [c] = kind) (hkind : kind ≠ .separator)
    (hsame : ∀ later, endsWord kind (kind :: later) = false) (current : List Char)
    (rest : List (List Char)) :
    wordsFrom current ((cs.map fun c => [c]) ++ rest) =
      if endsWord kind ((rest.take 2).map .of) then (current ++ cs) :: wordsFrom [] rest
      else wordsFrom (current ++ cs) rest := by
  induction cs generalizing current with
  | nil => contradiction
  | cons c cs ih =>
    obtain ⟨hc, hrest⟩ := List.forall_mem_cons.mp hcs
    rw [List.map_cons, List.cons_append, wordsFrom, hc, if_neg hkind]
    cases cs with
    | nil => rfl
    | cons d cs =>
      have hd := hrest d List.mem_cons_self
      rw [if_neg (by simp [hd, hsame]), ih (List.cons_ne_nil _ _) hrest]
      simp

/-- What can come after a word: nothing, or an underscore. -/
inductive Follows : List (List Char) → Prop
  | nothing : Follows []
  | underscore (later : List (List Char)) : Follows (['_'] :: later)

theorem Follows.not_endsWord {rest : List (List Char)} (h : Follows rest) (kind : ClusterKind) :
    endsWord kind ((rest.take 2).map .of) = false := by
  have hseparator : ClusterKind.of ['_'] = .separator := rfl
  cases h with
  | nothing => cases kind <;> rfl
  | underscore later => cases kind <;> simp [endsWord, hseparator]

namespace NumberedWord

/-- A word with a number is cut where the number begins. -/
theorem wordsFrom_chars (w : NumberedWord) {rest : List (List Char)} (hrest : Follows rest) :
    wordsFrom [] ((w.chars.map fun c => [c]) ++ rest) =
      if w.number = [] then wordsFrom w.letters rest
      else w.letters :: wordsFrom w.number rest := by
  have hletters : ∀ c ∈ w.letters, ClusterKind.of [c] = .lower := fun c hc =>
    (kind_of_isLower (w.isLower c hc)).2.2.1
  have hdigits : ∀ c ∈ w.number, ClusterKind.of [c] = .digit := fun c hc =>
    (kind_of_isDigit (w.isDigit c hc)).2.2.1
  have hkinds : ClusterKind.lower ≠ .separator ∧ ClusterKind.digit ≠ .separator := by decide
  rw [chars, List.map_append, List.append_assoc,
    wordsFrom_run w.letters_ne_nil hletters hkinds.1 fun _ => rfl, List.nil_append]
  by_cases hnumber : w.number = []
  · rw [hnumber, List.map_nil, List.nil_append, hrest.not_endsWord, if_pos rfl]
    rfl
  · have hend :
        endsWord .lower ((((w.number.map fun c => [c]) ++ rest).take 2).map .of) = true := by
      obtain ⟨d, number, heq⟩ := List.exists_cons_of_ne_nil hnumber
      simp [heq, endsWord, hdigits d (heq ▸ List.mem_cons_self)]
    rw [if_pos hend, if_neg hnumber, wordsFrom_run hnumber hdigits hkinds.2 fun _ => rfl,
      hrest.not_endsWord]
    rfl

end NumberedWord

theorem wordsFrom_conventional {words : List NumberedWord} (hne : words ≠ []) :
    wordsFrom [] ((['_'].intercalate (words.map NumberedWord.chars)).map fun c => [c]) =
      words.flatMap NumberedWord.parts := by
  induction words with
  | nil => contradiction
  | cons w words ih =>
    cases words with
    | nil =>
      have hword := w.wordsFrom_chars .nothing
      rw [List.append_nil] at hword
      simp only [List.map_cons, List.map_nil, List.intercalate_singleton, hword]
      simp only [wordsFrom, List.flatMap_cons, List.flatMap_nil, List.append_nil,
        NumberedWord.parts]
      split <;> simp [*]
    | cons next words =>
      have hword := w.wordsFrom_chars (.underscore
        ((['_'].intercalate ((next :: words).map NumberedWord.chars)).map fun c => [c]))
      have hseparator : ClusterKind.of ['_'] = .separator := rfl
      have hlater := ih (List.cons_ne_nil _ _)
      rw [List.map_cons, intercalate_cons_of_ne_nil _ _ (by simp), List.append_assoc,
        List.map_append, List.singleton_append, List.map_cons, hword, List.flatMap_cons, ← hlater]
      simp only [wordsFrom, hseparator, if_true, NumberedWord.parts]
      split <;> simp

/-- Text with an underscore and a small letter for each capital. -/
def fromCapitals (cs : List Char) : List Char :=
  cs.flatMap fun c => if c.isUpper then ['_', c.toLower] else [c]

theorem fromCapitals_append (cs ds : List Char) :
    fromCapitals (cs ++ ds) = fromCapitals cs ++ fromCapitals ds := List.flatMap_append

/-- Where there is no capital, nothing is put in. -/
theorem fromCapitals_eq_self {cs : List Char} (h : ∀ c ∈ cs, c.isUpper = false) :
    fromCapitals cs = cs := by
  induction cs with
  | nil => rfl
  | cons c cs ih =>
    obtain ⟨hc, hcs⟩ := List.forall_mem_cons.mp h
    have hrest := ih hcs
    rw [fromCapitals] at hrest ⊢
    simp [hc, hrest]

namespace NumberedWord

theorem isAscii_letters (w : NumberedWord) : IsAscii w.letters := fun c hc =>
  have hkind := kind_of_isLower (w.isLower c hc)
  ⟨hkind.1, hkind.2.1⟩

theorem isAscii_number (w : NumberedWord) : IsAscii w.number := fun c hc =>
  have hkind := kind_of_isDigit (w.isDigit c hc)
  ⟨hkind.1, hkind.2.1⟩

theorem isAscii_chars (w : NumberedWord) : IsAscii w.chars :=
  List.forall_mem_append.mpr ⟨w.isAscii_letters, w.isAscii_number⟩

theorem capitalize_letters (w : NumberedWord) :
    fromCapitals (capitalize w.letters) = '_' :: w.letters := by
  have hsmall : lowerList w.letters = w.letters := lowerList_eq_self w.isAscii_letters
    fun c hc => (kind_of_isLower (w.isLower c hc)).2.2.2.1
  rw [capitalize_of_isAscii w.isAscii_letters, hsmall]
  obtain ⟨c, cs, heq⟩ := List.exists_cons_of_ne_nil w.letters_ne_nil
  have hletters := w.isLower
  rw [heq] at hletters ⊢
  obtain ⟨hc, hcs⟩ := List.forall_mem_cons.mp hletters
  obtain ⟨_, _, _, _, _, hupper, hback⟩ := kind_of_isLower hc
  have hrest : fromCapitals cs = cs :=
    fromCapitals_eq_self fun d hd => (kind_of_isLower (hcs d hd)).2.2.2.2.1
  rw [fromCapitals] at hrest ⊢
  simp [raise, hupper, hback, hrest]

theorem capitalize_number (w : NumberedWord) :
    fromCapitals (capitalize w.number) = w.number := by
  have hdigits (c : Char) (hc : c ∈ w.number) := kind_of_isDigit (w.isDigit c hc)
  have hsmall : lowerList w.number = w.number :=
    lowerList_eq_self w.isAscii_number fun c hc => (hdigits c hc).2.2.2.1
  have hraise : raise w.number = w.number := by
    cases heq : w.number with
    | nil => rfl
    | cons d number => rw [raise, (hdigits d (heq ▸ List.mem_cons_self)).2.2.2.2.2]
  rw [capitalize_of_isAscii w.isAscii_number, hsmall, hraise]
  exact fromCapitals_eq_self fun c hc => (hdigits c hc).2.2.2.2.1

/-- The parts of a word are read back from their capitalized forms. -/
theorem capitalize_parts (w : NumberedWord) :
    fromCapitals (w.parts.map capitalize).flatten = '_' :: w.chars := by
  rw [parts, List.map_cons, List.flatten_cons, fromCapitals_append, capitalize_letters, chars,
    List.cons_append]
  split
  · next hnone => rw [hnone]; rfl
  · rw [List.map_singleton, List.flatten_singleton, capitalize_number]

end NumberedWord

/-- Words that are joined by underscores have one in front of each but the first. -/
theorem cons_intercalate {words : List NumberedWord} (hne : words ≠ []) :
    '_' :: ['_'].intercalate (words.map NumberedWord.chars) =
      words.flatMap fun w => '_' :: w.chars := by
  induction words with
  | nil => contradiction
  | cons w words ih =>
    cases words with
    | nil => simp
    | cons next words =>
      rw [List.flatMap_cons, ← ih (List.cons_ne_nil _ _), List.map_cons,
        intercalate_cons_of_ne_nil _ _ (by simp)]
      simp

theorem IsConventional.isAscii {name : String} (h : IsConventional name) :
    IsAscii name.toList := by
  obtain ⟨words, hne, hname⟩ := h
  intro c hc
  have hmem : c ∈ words.flatMap fun w => '_' :: w.chars :=
    cons_intercalate hne ▸ List.mem_cons_of_mem _ (hname ▸ hc)
  obtain ⟨w, _, hin⟩ := List.mem_flatMap.mp hmem
  rcases List.mem_cons.mp hin with rfl | hin
  · decide
  · exact w.isAscii_chars c hin

/-- A conventional name is read back from its Pascal case. -/
theorem fromCapitals_pascalCase {name : String} (h : IsConventional name) :
    fromCapitals (pascalCase name).toList = '_' :: name.toList := by
  have hascii := h.isAscii
  obtain ⟨words, hne, hname⟩ := h
  have hwords : wordsOf name = words.flatMap NumberedWord.parts := by
    rw [wordsOf, clusters, clustersAfter_of_isAscii hascii, hname, wordsFrom_conventional hne]
  rw [pascalCase, hwords, String.toList_ofList, hname, cons_intercalate hne]
  clear hwords hname hascii hne
  induction words with
  | nil => rfl
  | cons w words ih =>
    rw [List.flatMap_cons, List.flatMap_cons, List.map_append, List.flatten_append,
      fromCapitals_append, w.capitalize_parts, ih]

/-- Conventional names are told apart by their Pascal case. -/
theorem pascalCase_injOn {a b : String} (ha : IsConventional a) (hb : IsConventional b)
    (h : pascalCase a = pascalCase b) : a = b := by
  have hback := fromCapitals_pascalCase ha
  rw [h, fromCapitals_pascalCase hb] at hback
  exact String.toList_injective (List.cons.inj hback).2.symm

end DaoGen.Text
