import DaoGen.Proofs.Sql.Scan
import DaoGen.Proofs.Sql.Words

/-!
# The insides of literals

A statement is read by its words, and single quotes are characters of words like any others. So a
word with a quote in it is no keyword, and the words before the first literal tell the verb and, in
most statements, the table. But a search among all words goes on inside literals: an answer that is
searched for is found in the text without the insides of literals or in one of the literals.

## Main definitions

* `withoutLiterals`, `literalsOf`: a statement without the insides of its string literals,
  and those literals.
* `SameOutsideLiterals`: statements that differ only inside of literals.

## Main results

* `CutsAtQuotes.eq_or`: what is searched for is found outside of literals or in one of them.
* `verbOf_withoutLiterals`, `mutatedTable?_withoutLiterals`: answers from before the first literal.
* `replacesRows_eq_or`, `returnsRows_eq_or`: answers that look into literals.
-/
namespace DaoGen.Sql

/-! ## Literals -/

/-- Text without the insides of its string literals, after text that leaves the given quote open.
What stands between double quotes is a name and stays. -/
def outside : Option Char → List Char → List Char
  | _, [] => []
  | mark, c :: rest =>
    if mark = some '\'' ∧ c ≠ '\'' then outside mark rest
    else c :: outside (quoteAfter mark c) rest

/-- The string literals of a text with their quotes, where `read` has been read of one that is
open. -/
def literalsAfter : Option Char → List Char → List Char → List (List Char)
  | mark, read, [] => if mark = some '\'' then [read] else []
  | mark, read, c :: rest =>
    if mark = some '\'' ∧ c ≠ '\'' then literalsAfter mark (read ++ [c]) rest
    else
      (if mark = some '\'' then [read ++ [c]] else []) ++ literalsAfter (quoteAfter mark c) [c] rest

/-- A statement without the insides of its string literals. -/
def withoutLiterals (sql : String) : String := String.ofList (outside none sql.toList)

/-- The string literals of a statement with their quotes. -/
def literalsOf (sql : String) : List String :=
  (literalsAfter none [] sql.toList).map String.ofList

/-- Statements that differ only inside of string literals. -/
def SameOutsideLiterals (s t : String) : Prop := withoutLiterals s = withoutLiterals t

instance (s t : String) : Decidable (SameOutsideLiterals s t) :=
  inferInstanceAs (Decidable (withoutLiterals s = withoutLiterals t))

attribute [grind =] outside literalsAfter

@[simp] theorem outside_nil (mark : Option Char) : outside mark [] = [] := by
  cases mark <;> rfl

section Steps

variable {mark : Option Char} {c : Char}

theorem outside_cons_of_kept (h : mark ≠ some '\'' ∨ c = '\'') (rest : List Char) :
    outside mark (c :: rest) = c :: outside (quoteAfter mark c) rest := by
  rw [outside, if_neg (by tauto)]

theorem outside_cons_of_inside (h : c ≠ '\'') (rest : List Char) :
    outside (some '\'') (c :: rest) = outside (some '\'') rest := by
  rw [outside, if_pos ⟨rfl, h⟩]

theorem literalsAfter_cons_of_inside (h : c ≠ '\'') (read rest : List Char) :
    literalsAfter (some '\'') read (c :: rest) =
      literalsAfter (some '\'') (read ++ [c]) rest := by
  rw [literalsAfter, if_pos ⟨rfl, h⟩]

theorem literalsAfter_cons_of_outside (h : mark ≠ some '\'') (read rest : List Char) :
    literalsAfter mark read (c :: rest) = literalsAfter (quoteAfter mark c) [c] rest := by
  rw [literalsAfter, if_neg (by tauto), if_neg h, List.nil_append]

theorem literalsAfter_cons_of_close (read rest : List Char) :
    literalsAfter (some '\'') read ('\'' :: rest) =
      (read ++ ['\'']) :: literalsAfter none ['\''] rest := by
  rw [literalsAfter, if_neg (by tauto), if_pos rfl, List.singleton_append]
  rfl

/-- Only a single quote opens a literal. -/
theorem eq_quote_of_quoteAfter (hmark : mark ≠ some '\'') (h : quoteAfter mark c = some '\'') :
    c = '\'' := by
  cases mark with
  | none =>
    rw [quoteAfter] at h
    split at h
    · exact Option.some.inj h
    · cases h
  | some d =>
    rw [quoteAfter] at h
    split at h
    · cases h
    · exact absurd h hmark

end Steps

/-- What is left of a text depends on the text before only through the quote left open. -/
theorem outside_append (mark : Option Char) (a b : List Char) :
    outside mark (a ++ b) = outside mark a ++ outside (a.foldl quoteAfter mark) b := by
  induction a generalizing mark with
  | nil => simp
  | cons c rest ih =>
    rw [List.cons_append, List.foldl_cons]
    by_cases h : mark = some '\'' ∧ c ≠ '\''
    · obtain ⟨rfl, hc⟩ := h
      rw [outside_cons_of_inside hc, outside_cons_of_inside hc, ih, quoteAfter, if_neg hc]
    · rw [outside_cons_of_kept (by tauto), outside_cons_of_kept (by tauto), ih, List.cons_append]

theorem outside_of_notMem {inside : List Char} (h : '\'' ∉ inside) :
    outside (some '\'') inside = [] ∧ inside.foldl quoteAfter (some '\'') = some '\'' := by
  induction inside with
  | nil => exact ⟨outside_nil _, rfl⟩
  | cons c rest ih =>
    obtain ⟨hc, hrest⟩ := List.ne_and_not_mem_of_not_mem_cons h
    rw [outside_cons_of_inside (Ne.symm hc), List.foldl_cons, quoteAfter, if_neg (Ne.symm hc)]
    exact ih hrest

/-- A literal may be exchanged for another one. -/
theorem sameOutsideLiterals_append {before inside inside' : List Char} (after : List Char)
    (hbefore : openQuote before = none) (hinside : '\'' ∉ inside) (hinside' : '\'' ∉ inside') :
    SameOutsideLiterals (String.ofList (before ++ '\'' :: (inside ++ '\'' :: after)))
      (String.ofList (before ++ '\'' :: (inside' ++ '\'' :: after))) := by
  have hleft (l : List Char) (h : '\'' ∉ l) :
      outside none (before ++ '\'' :: (l ++ '\'' :: after)) =
        outside none before ++ '\'' :: '\'' :: outside none after := by
    have hopen : before.foldl quoteAfter none = none := hbefore
    obtain ⟨houtside, hmark⟩ := outside_of_notMem h
    rw [outside_append, hopen, outside_cons_of_kept (.inr rfl)]
    change _ ++ '\'' :: outside (some '\'') (l ++ '\'' :: after) = _
    rw [outside_append, houtside, hmark, outside_cons_of_kept (.inr rfl)]
    rfl
  simp [SameOutsideLiterals, withoutLiterals, hleft inside hinside, hleft inside' hinside']

/-! ## Searches -/

/-- An answer about a text that is found on one side of a single quote or on the other. -/
structure CutsAtQuotes (f : List Char → Bool) : Prop where
  cut : ∀ a b, f (a ++ '\'' :: b) = (f (a ++ ['\'']) || f ('\'' :: b))
  quote : f ['\''] = false
  quotes : f ['\'', '\''] = false

section Search

variable {f : List Char → Bool}

theorem CutsAtQuotes.eq_or_of_mark (h : CutsAtQuotes f) (cs : List Char) :
    (∀ mark ≠ some '\'', ∀ before read, f (before ++ cs) =
      (f (before ++ outside mark cs) || (literalsAfter mark read cs).any f)) ∧
    ∀ read, f ('\'' :: read ++ cs) =
      (f ('\'' :: outside (some '\'') cs) ||
        (literalsAfter (some '\'') ('\'' :: read) cs).any f) := by
  induction cs with
  | nil =>
    refine ⟨fun mark hmark before read => ?_, fun read => ?_⟩
    · simp [outside, literalsAfter, hmark]
    · simp [outside, literalsAfter, h.quote]
  | cons c rest ih =>
    obtain ⟨houtside, hinside⟩ := ih
    refine ⟨fun mark hmark before read => ?_, fun read => ?_⟩
    · rw [outside_cons_of_kept (.inl hmark), literalsAfter_cons_of_outside hmark]
      by_cases hopens : quoteAfter mark c = some '\''
      · obtain rfl := eq_quote_of_quoteAfter hmark hopens
        rw [hopens, h.cut before rest, h.cut before (outside _ rest), Bool.or_assoc]
        exact congrArg _ (hinside [])
      · simpa using houtside _ hopens (before ++ [c]) [c]
    · by_cases hc : c = '\''
      · subst hc
        rw [outside_cons_of_kept (.inr rfl), literalsAfter_cons_of_close]
        have hclosed : f ('\'' :: rest) = (f ('\'' :: outside none rest) ||
            (literalsAfter none ['\''] rest).any f) := houtside none nofun ['\''] ['\'']
        have hempty : f ('\'' :: '\'' :: outside none rest) = f ('\'' :: outside none rest) := by
          simpa [h.quotes] using h.cut ['\''] (outside none rest)
        change _ = (f ('\'' :: '\'' :: outside none rest) || _)
        rw [h.cut ('\'' :: read) rest, hclosed, hempty, List.any_cons, Bool.or_left_comm]
      · rw [outside_cons_of_inside hc, literalsAfter_cons_of_inside hc]
        simpa using hinside (read ++ [c])

/-- What is searched for is found in the text without the insides of literals or in one of the
literals. -/
theorem CutsAtQuotes.eq_or (h : CutsAtQuotes f) (cs : List Char) :
    f cs = (f (outside none cs) || (literalsAfter none [] cs).any f) :=
  (h.eq_or_of_mark cs).1 none nofun [] []

end Search

/-- An answer about the words of a text is cut at quotes if a word with a quote in it says nothing
and keeps apart what stands on its sides. -/
theorem cutsAtQuotes_of_runs {p : Char → Bool} (hp : p '\'' = false)
    {f : List (List Char) → Bool} (hnil : f [] = false)
    (hcut : ∀ runs w later, '\'' ∈ w → f (runs ++ w :: later) = (f runs || f later)) :
    CutsAtQuotes fun cs => f (Text.runsOutside p cs) where
  cut a b := by
    have hfirst : f (Text.runsOutside p ('\'' :: b)) =
        f (Text.runsOutside p (b.dropWhile (!p ·))) := by
      rw [← List.nil_append ('\'' :: b), Text.runsOutside_append_glue hp, hcut _ _ _ (by simp)]
      simp [hnil]
    rw [hfirst, Text.runsOutside_append_glue hp, Text.runsOutside_append_glue hp,
      hcut _ _ _ (by simp), hcut _ _ _ (by simp)]
    simp [hnil]
  quote := by
    rw [← List.nil_append ['\''], Text.runsOutside_append_glue hp, hcut _ _ _ (by simp)]
    simp [hnil]
  quotes := by
    rw [← List.nil_append ['\'', '\''], Text.runsOutside_append_glue hp, hcut _ _ _ (by simp)]
    simp [hnil, hp]

/-! ## Keywords -/

theorem upper_ne_of_quote {w keyword : String} (hw : '\'' ∈ w.toList)
    (hkeyword : '\'' ∉ keyword.toList) : Text.upper w ≠ keyword :=
  upper_ne hw (by decide) hkeyword

/-- The words `DO UPDATE` are found outside of literals or in one of them. -/
theorem hasDoUpdate_eq_or (sql : String) :
    hasDoUpdate (keywordsOf sql) = (hasDoUpdate (keywordsOf (withoutLiterals sql)) ||
      (literalsOf sql).any fun literal => hasDoUpdate (keywordsOf literal)) := by
  let f (runs : List (List Char)) := hasDoUpdate ((runs.map String.ofList).map Text.upper)
  have hcuts : CutsAtQuotes fun cs => f (Text.runsOutside isWordEnd cs) := by
    refine cutsAtQuotes_of_runs (by decide) rfl fun runs w later hw => ?_
    have hw : '\'' ∈ (String.ofList w).toList := by simpa using hw
    simp only [f, List.map_append, List.map_cons]
    exact hasDoUpdate_append_cons (upper_ne_of_quote hw (by decide))
      (upper_ne_of_quote hw (by decide)) _ _
  simpa [f, keywordsOf, wordsOf, withoutLiterals, literalsOf, Function.comp_def] using
    hcuts.eq_or sql.toList

/-- The word `RETURNING` is found outside of literals or in one of them. -/
theorem returnsRows_eq_or (sql : String) :
    returnsRows sql = (returnsRows (withoutLiterals sql) || (literalsOf sql).any returnsRows) := by
  let f (runs : List (List Char)) :=
    runs.any fun word => word.map Char.toUpper == "RETURNING".toList
  have hcuts : CutsAtQuotes fun cs => f (Text.runsOutside Text.isBlank cs) := by
    refine cutsAtQuotes_of_runs (by decide) rfl fun runs w later hw => ?_
    have hne : (w.map Char.toUpper == "RETURNING".toList) = false := by
      rw [beq_eq_false_iff_ne]
      intro heq
      have hmem : Char.toUpper '\'' ∈ "RETURNING".toList := heq ▸ List.mem_map_of_mem hw
      exact absurd hmem (by decide)
    simp only [f, List.any_append, List.any_cons, hne, Bool.false_or]
  simpa [f, returnsRows, withoutLiterals, literalsOf, Function.comp_def] using
    hcuts.eq_or sql.toList

/-! ## Words before the first literal -/

/-- Nothing is left out before the quote that opens the first literal. -/
theorem outside_eq_or {mark : Option Char} (hmark : mark ≠ some '\'') (cs : List Char) :
    outside mark cs = cs ∨ ∃ before inside after,
      cs = before ++ '\'' :: inside ∧ outside mark cs = before ++ '\'' :: after := by
  induction cs generalizing mark with
  | nil => exact .inl (outside_nil mark)
  | cons c rest ih =>
    rw [outside_cons_of_kept (.inl hmark)]
    by_cases hopens : quoteAfter mark c = some '\''
    · obtain rfl := eq_quote_of_quoteAfter hmark hopens
      exact .inr ⟨[], rest, _, rfl, rfl⟩
    · obtain hsame | ⟨before, inside, after, hrest, hleft⟩ := ih hopens
      · exact .inl (by rw [hsame])
      · exact .inr ⟨c :: before, inside, after, by rw [hrest]; rfl, by rw [hleft]; rfl⟩

/-- A quote is in a word, and the words before that do not depend on what follows the quote. -/
theorem wordsOf_append_quote (before inside : List Char) :
    ∃ w later, wordsOf (String.ofList (before ++ '\'' :: inside)) =
      wordsOf (String.ofList (before.rdropWhile (!isWordEnd ·))) ++ w :: later ∧
        '\'' ∈ w.toList := by
  let run := before.rtakeWhile (!isWordEnd ·) ++ '\'' :: inside.takeWhile (!isWordEnd ·)
  let later := Text.runsOutside isWordEnd (inside.dropWhile (!isWordEnd ·))
  refine ⟨String.ofList run, later.map String.ofList, ?_, by simp [run]⟩
  simp [wordsOf, Text.runsOutside_append_glue (show isWordEnd '\'' = false by decide), run, later]

/-- Two lists of words that go on alike up to words with quotes in them. -/
def AlikeUpToQuote (words words' : List String) : Prop :=
  ∃ before w later w' later', words = before ++ w :: later ∧ words' = before ++ w' :: later' ∧
    '\'' ∈ w.toList ∧ '\'' ∈ w'.toList

theorem wordsOf_withoutLiterals (sql : String) :
    withoutLiterals sql = sql ∨ AlikeUpToQuote (wordsOf sql) (wordsOf (withoutLiterals sql)) := by
  have hplain : (none : Option Char) ≠ some '\'' := nofun
  obtain hsame | ⟨before, inside, after, hsql, hleft⟩ := outside_eq_or hplain sql.toList
  · exact .inl (by rw [withoutLiterals, hsame, String.ofList_toList])
  · obtain ⟨w, later, hwords, hw⟩ := wordsOf_append_quote before inside
    obtain ⟨w', later', hwords', hw'⟩ := wordsOf_append_quote before after
    rw [← hsql, String.ofList_toList] at hwords
    rw [← hleft] at hwords'
    exact .inr ⟨_, w, later, w', later', hwords, hwords', hw, hw'⟩

namespace AlikeUpToQuote

variable {words words' : List String}

theorem keywords (h : AlikeUpToQuote words words') :
    AlikeUpToQuote (words.map Text.upper) (words'.map Text.upper) := by
  obtain ⟨before, w, later, w', later', rfl, rfl, hw, hw'⟩ := h
  exact ⟨before.map Text.upper, Text.upper w, later.map Text.upper, Text.upper w',
    later'.map Text.upper, by simp, by simp, mem_upper hw (by decide), mem_upper hw' (by decide)⟩

end AlikeUpToQuote

theorem Verb.ofKeyword_of_quote {w : String} (h : '\'' ∈ w.toList) : ofKeyword w = .other := by
  unfold ofKeyword
  split <;> first | rfl | exact absurd h (by decide)

/-- The verb stands before the first literal. -/
theorem verbOf_withoutLiterals (sql : String) : verbOf (withoutLiterals sql) = verbOf sql := by
  obtain hsame | hwords := wordsOf_withoutLiterals sql
  · rw [hsame]
  · obtain ⟨before, w, later, w', later', hkeywords, hkeywords', hw, hw'⟩ := hwords.keywords
    rw [verbOf, verbOf, keywordsOf, keywordsOf, hkeywords, hkeywords']
    cases before with
    | nil => exact (Verb.ofKeyword_of_quote hw').trans (Verb.ofKeyword_of_quote hw).symm
    | cons first before => rfl

theorem hasOrReplace_eq (words : List String) :
    hasOrReplace words = decide (words[1]? = some "OR" ∧ words[2]? = some "REPLACE") := by
  unfold hasOrReplace
  split
  · rfl
  · next hnot =>
    symm
    rw [decide_eq_false_iff_not]
    rintro ⟨hor, hreplace⟩
    obtain _ | ⟨first, _ | ⟨second, _ | ⟨third, later⟩⟩⟩ := words <;> simp_all

/-- `OR REPLACE` stands before the first literal of an insert. -/
theorem hasOrReplace_withoutLiterals {sql : String} (h : verbOf sql ≠ .other) :
    hasOrReplace (keywordsOf (withoutLiterals sql)) = hasOrReplace (keywordsOf sql) := by
  obtain hsame | hwords := wordsOf_withoutLiterals sql
  · rw [hsame]
  · obtain ⟨before, w, later, w', later', hkeywords, hkeywords', hw, hw'⟩ := hwords.keywords
    have hne {keyword : String} (hkeyword : '\'' ∉ keyword.toList) :
        w ≠ keyword ∧ w' ≠ keyword :=
      ⟨fun heq => hkeyword (heq ▸ hw), fun heq => hkeyword (heq ▸ hw')⟩
    have hor := hne (show '\'' ∉ "OR".toList by decide)
    have hreplace := hne (show '\'' ∉ "REPLACE".toList by decide)
    rw [verbOf, keywordsOf, hkeywords] at h
    rw [keywordsOf, keywordsOf, hkeywords, hkeywords', hasOrReplace_eq, hasOrReplace_eq]
    obtain _ | ⟨first, _ | ⟨second, _ | ⟨third, before⟩⟩⟩ := before
    · exact absurd (Verb.ofKeyword_of_quote hw) h
    · simp [hor]
    · simp [hreplace]
    · rfl

/-- Some literal of a statement holds the words `DO UPDATE`. -/
def holdsDoUpdate (sql : String) : Bool :=
  (literalsOf sql).any fun literal => hasDoUpdate (keywordsOf literal)

/-- Some literal of a statement holds the word `RETURNING`. -/
def holdsReturning (sql : String) : Bool := (literalsOf sql).any returnsRows

/-- An insert seems to overwrite rows too if one of its literals holds `DO UPDATE`. -/
theorem replacesRows_eq_or (sql : String) :
    replacesRows sql = (replacesRows (withoutLiterals sql) ||
      (decide (verbOf sql = .insert) && holdsDoUpdate sql)) := by
  unfold replacesRows
  rw [verbOf_withoutLiterals]
  cases hverb : verbOf sql with
  | insert =>
    rw [hasOrReplace_withoutLiterals (by simp [hverb]), hasDoUpdate_eq_or sql]
    simp [holdsDoUpdate, Bool.or_assoc]
  | select | update | delete | replace | other => rfl

/-! ## Tables -/

/-- The place of the table depends on the words up to it only. -/
theorem tablePlace?_append {verb : Verb} {before later later' : List String} {place : Nat}
    (hplace : tablePlace? verb (before ++ later') = some place) (hlt : place < before.length) :
    tablePlace? verb (before ++ later) = some place := by
  have hsecond (hone : 1 < before.length) : (before ++ later)[1]? = (before ++ later')[1]? := by
    rw [List.getElem?_append_left hone, List.getElem?_append_left hone]
  have hinto (h : ((before ++ later').findIdx? (· == "INTO")).map (· + 1) = some place) :
      ((before ++ later).findIdx? (· == "INTO")).map (· + 1) = some place := by
    rw [List.findIdx?_append] at h ⊢
    cases hfound : before.findIdx? (· == "INTO") with
    | some i => simpa [hfound] using h
    | none =>
      simp [hfound] at h
      omega
  cases verb with
  | insert | replace => exact hinto hplace
  | update =>
    simp only [tablePlace?, Option.some.injEq] at hplace ⊢
    rwa [hsecond (by split at hplace <;> omega)]
  | delete =>
    simp only [tablePlace?] at hplace ⊢
    split at hplace
    · next hfrom =>
      cases hplace
      rw [hsecond (by omega), if_pos hfrom]
    · cases hplace
  | select | other => cases hplace

/-- A table that is named before the first literal is found whatever the literals hold. -/
theorem mutatedTable?_withoutLiterals {sql : String} {place : Nat}
    (hplace : tablePlace? (verbOf (withoutLiterals sql)) (keywordsOf (withoutLiterals sql)) =
      some place)
    (hbefore : ∀ w ∈ (wordsOf (withoutLiterals sql)).take (place + 1), '\'' ∉ w.toList) :
    mutatedTable? (withoutLiterals sql) = mutatedTable? sql := by
  obtain hsame | ⟨before, w, later, w', later', hwords, hwords', hw, hw'⟩ :=
    wordsOf_withoutLiterals sql
  · rw [hsame]
  · have hlt : place < before.length := by
      by_contra hle
      refine hbefore w' ?_ hw'
      rw [hwords', List.mem_take_iff_getElem]
      exact ⟨before.length, by simp; omega, by simp⟩
    have hplace' : tablePlace? (verbOf sql) (keywordsOf sql) = some place := by
      rw [verbOf_withoutLiterals, keywordsOf, hwords', List.map_append] at hplace
      rw [keywordsOf, hwords, List.map_append]
      exact tablePlace?_append hplace (by simpa using hlt)
    have hword : (wordsOf (withoutLiterals sql))[place]? = (wordsOf sql)[place]? := by
      rw [hwords, hwords', List.getElem?_append_left hlt, List.getElem?_append_left hlt]
    rw [mutatedTable?, mutatedTable?, hplace, hplace']
    simp only [Option.bind_eq_bind, Option.bind_some, hword]

theorem mutatedTable?_of_not_isMutation {sql : String} (h : isMutation sql = false) :
    mutatedTable? sql = none := by
  unfold isMutation at h
  unfold mutatedTable?
  cases hverb : verbOf sql with
  | select | other => rfl
  | insert | update | delete | replace =>
    rw [hverb] at h
    cases h

end DaoGen.Sql
