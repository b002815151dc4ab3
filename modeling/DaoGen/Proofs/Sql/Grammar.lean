import DaoGen.Proofs.Sql.WriteWords

/-!
# The grammar of statements that write rows

A statement that writes rows begins with a few keywords, which depend on its verb, and then names
its table. However the keywords and the table are written, and whatever comes after the table, the
statement is read with the verb of its keywords and the name of the table.

## Main definitions

* `Spells`: words with white space between them, as a spelling of keywords.
* `WriteForm`: the keywords before the table, by verb.
* `NameQuotes`: the ways to quote the name of a table.

## Main results

* `keywordsOf_of_spells`: the keywords that a text spells are those that are read.
* `read_writeForm`: the verb and the table of a statement of one of the forms.
-/
namespace DaoGen.Sql

/-! ## Spellings of keywords -/

/-- White space between words; before the first word it may be empty. -/
def IsGap (s : String) : Prop := ∀ c ∈ s.toList, Text.isBlank c = true

instance (s : String) : Decidable (IsGap s) :=
  decidable_of_iff (s.toList.all Text.isBlank = true) List.all_eq_true

/-- A text consists of words that are the given keywords in some letter case, with white space
between them. -/
inductive Spells : List String → String → Prop where
  | first {gap word keyword : String} (hgap : IsGap gap) (hword : IsWord word)
    (hkeyword : Text.upper word = keyword) : Spells [keyword] (gap ++ word)
  | next {keywords : List String} {text gap word keyword : String} (h : Spells keywords text)
    (hgap : IsGap gap) (hne : gap ≠ "") (hword : IsWord word)
    (hkeyword : Text.upper word = keyword) : Spells (keywords ++ [keyword]) (text ++ gap ++ word)

theorem isWordEnd_of_isBlank {c : Char} (h : Text.isBlank c = true) : isWordEnd c = true := by
  simp [isWordEnd, h]

/-- White space holds no words. -/
theorem wordsOf_of_isGap {gap : String} (h : IsGap gap) : wordsOf gap = [] := by
  have hruns : ∀ cs : List Char, (∀ c ∈ cs, Text.isBlank c = true) →
      Text.runsOutside isWordEnd cs = [] := by
    intro cs hcs
    induction cs with
    | nil => rfl
    | cons c cs ih =>
      obtain ⟨hc, hcs⟩ := List.forall_mem_cons.mp hcs
      rw [Text.runsOutside_cons_delimiter (isWordEnd_of_isBlank hc), ih hcs]
  rw [wordsOf, hruns _ h, List.map_nil]

/-- A word after white space is the only word. -/
theorem wordsOf_gap_append {gap word : String} (hgap : IsGap gap) (hword : IsWord word) :
    wordsOf (gap ++ word) = [word] := by
  rcases List.eq_nil_or_concat gap.toList with hnil | ⟨front, c, hlast⟩
  · rw [String.toList_eq_nil_iff.mp hnil, String.empty_append, wordsOf_of_isWord hword]
  · have hc : Text.isBlank c = true := hgap c (by simp [hlast])
    rw [wordsOf_append_of_getLast? (by simp [hlast]) (isWordEnd_of_isBlank hc),
      wordsOf_of_isGap hgap, wordsOf_of_isWord hword, List.nil_append]

/-- White space ends the word before it. -/
theorem wordsOf_append_gap_append {text gap word : String} (hgap : IsGap gap) (hne : gap ≠ "")
    (hword : IsWord word) : wordsOf (text ++ gap ++ word) = wordsOf text ++ [word] := by
  obtain ⟨c, cs, hcs⟩ := List.exists_cons_of_ne_nil (mt String.toList_eq_nil_iff.mp hne)
  have hc : Text.isBlank c = true := hgap c (by simp [hcs])
  rw [String.append_assoc, wordsOf_append_of_head? (by simp [hcs]) (isWordEnd_of_isBlank hc),
    wordsOf_gap_append hgap hword]

/-- What follows a statement up to the end of a word adds its words. -/
theorem wordsOf_append_rest {rest : String} (hrest : ∀ c ∈ rest.toList.head?, isWordEnd c = true)
    (s : String) : wordsOf (s ++ rest) = wordsOf s ++ wordsOf rest := by
  cases hhead : rest.toList.head? with
  | none =>
    have hnil : rest = "" := String.toList_eq_nil_iff.mp (List.head?_eq_none_iff.mp hhead)
    rw [hnil, String.append_empty, show wordsOf "" = [] by rfl, List.append_nil]
  | some c => exact wordsOf_append_of_head? hhead (hrest c hhead) s

/-- The keywords that a text spells are those that are read. -/
theorem keywordsOf_of_spells {keywords : List String} {text : String} (h : Spells keywords text) :
    keywordsOf text = keywords := by
  induction h with
  | first hgap hword hkeyword => simp [keywordsOf, wordsOf_gap_append hgap hword, hkeyword]
  | next h hgap hne hword hkeyword ih =>
    rw [keywordsOf, wordsOf_append_gap_append hgap hne hword, List.map_append, ← keywordsOf, ih,
      List.map_singleton, hkeyword]

/-! ## Quoted tables -/

/-- How the name of a table is quoted. -/
inductive NameQuotes where
  | bare
  | double
  | backtick
  | square
  deriving DecidableEq, Repr

/-- The characters before and after the name. -/
def NameQuotes.marks : NameQuotes → List Char × List Char
  | .bare => ([], [])
  | .double => (['"'], ['"'])
  | .backtick => (['`'], ['`'])
  | .square => (['['], [']'])

/-- A name with its quotes. -/
def NameQuotes.around (quotes : NameQuotes) (name : String) : String :=
  String.ofList quotes.marks.1 ++ name ++ String.ofList quotes.marks.2

theorem isWordEnd_of_isNameQuote {c : Char} (h : isNameQuote c = true) : isWordEnd c = false := by
  simp only [isNameQuote, Bool.or_eq_true, beq_iff_eq] at h
  obtain ((rfl | rfl) | rfl) | rfl := h <;> decide

namespace NameQuotes

variable {table : String} (quotes : NameQuotes)

theorem isNameQuote_of_mem_marks :
    (∀ c ∈ quotes.marks.1, isNameQuote c = true) ∧ ∀ c ∈ quotes.marks.2, isNameQuote c = true := by
  cases quotes <;> simp [marks] <;> decide

theorem toList_around (name : String) :
    (quotes.around name).toList = quotes.marks.1 ++ name.toList ++ quotes.marks.2 := by
  simp [around]

theorem isWord_around (h : IsPlainName table) : IsWord (quotes.around table) := by
  obtain ⟨hopen, hclose⟩ := quotes.isNameQuote_of_mem_marks
  refine ⟨by simp [toList_around, h.ne_nil], ?_⟩
  rw [toList_around, List.forall_mem_append, List.forall_mem_append]
  exact ⟨⟨fun c hc => isWordEnd_of_isNameQuote (hopen c hc), h.isWord.not_isWordEnd⟩,
    fun c hc => isWordEnd_of_isNameQuote (hclose c hc)⟩

/-- With quotes around it, a name is no keyword; without, it is none unless it is one itself. -/
theorem upper_around_ne {keyword : String} (hkeyword : ∀ c ∈ keyword.toList, isNameQuote c = false)
    (hne : Text.upper table ≠ keyword) : Text.upper (quotes.around table) ≠ keyword := by
  have hquoted {c : Char} (hmem : c ∈ (quotes.around table).toList) (hc : isNameQuote c = true)
      (hupper : Text.upperChar c = [c]) : Text.upper (quotes.around table) ≠ keyword := by
    refine upper_ne hmem hupper fun hin => ?_
    rw [hkeyword c hin] at hc
    cases hc
  cases quotes with
  | bare => simpa [around, marks] using hne
  | double => exact hquoted (c := '"') (by simp [around, marks]) (by decide) (by decide)
  | backtick => exact hquoted (c := '`') (by simp [around, marks]) (by decide) (by decide)
  | square => exact hquoted (c := '[') (by simp [around, marks]) (by decide) (by decide)

end NameQuotes

/-! ## Statements -/

/-- The keywords before the table of a statement that writes rows. What is to be done about
conflicts is any word but `INTO`. -/
inductive WriteForm : List String → Verb → Prop where
  | insert : WriteForm ["INSERT", "INTO"] .insert
  | insertOr {action : String} (haction : action ≠ "INTO") :
    WriteForm ["INSERT", "OR", action, "INTO"] .insert
  | replace : WriteForm ["REPLACE", "INTO"] .replace
  | update : WriteForm ["UPDATE"] .update
  | updateOr {action : String} (haction : action ≠ "INTO") :
      WriteForm ["UPDATE", "OR", action] .update
  | delete : WriteForm ["DELETE", "FROM"] .delete

/-- The first of the keywords is the verb, and the table comes right after the last one, unless
it is a word that says what to do about conflicts. -/
theorem WriteForm.read {keywords : List String} {verb : Verb} (h : WriteForm keywords verb) :
    keywords ≠ [] ∧ keywords.head?.elim .other Verb.ofKeyword = verb ∧
      ∀ table rest, table ≠ "OR" →
        tablePlace? verb (keywords ++ table :: rest) = some keywords.length := by
  cases h with
  | insertOr haction =>
    refine ⟨by simp, rfl, fun table rest _ => ?_⟩
    simp [tablePlace?, List.findIdx?_cons, haction]
  | update => exact ⟨by simp, rfl, fun table rest hor => by simp [tablePlace?, hor]⟩
  | insert | replace | updateOr | delete => exact ⟨by simp, rfl, fun _ _ _ => rfl⟩

/-- A statement of one of the forms, however it is spelled, is read with the verb of the form and
the table that it names. An insert that says `OR REPLACE` overwrites rows. -/
theorem read_writeForm {keywords : List String} {verb : Verb} {front gap table rest : String}
    (hform : WriteForm keywords verb) (hfront : Spells keywords front) (hgap : IsGap gap)
    (hne : gap ≠ "") (quotes : NameQuotes) (htable : IsPlainName table)
    (hor : Text.upper table ≠ "OR") (hrest : ∀ c ∈ rest.toList.head?, isWordEnd c = true) :
    let sql := front ++ gap ++ quotes.around table ++ rest
    verbOf sql = verb ∧ mutatedTable? sql = some table ∧
      (["INSERT", "OR", "REPLACE"] <+: keywords → replacesRows sql = true) := by
  intro sql
  let word := quotes.around table
  have hword : IsWord word := quotes.isWord_around htable
  have hwords : wordsOf sql = wordsOf front ++ word :: wordsOf rest := by
    rw [wordsOf_append_rest hrest, wordsOf_append_gap_append hgap hne hword, List.append_assoc,
      List.singleton_append]
  have hkeywords : keywordsOf sql = keywords ++ Text.upper word :: keywordsOf rest := by
    rw [← keywordsOf_of_spells hfront]
    simp [keywordsOf, hwords]
  obtain ⟨hne, hread, hplace⟩ := hform.read
  have hverb : verbOf sql = verb := by
    rw [verbOf, hkeywords, List.head?_append_of_ne_nil _ hne, hread]
  have hlength : (wordsOf front).length = keywords.length := by
    rw [← keywordsOf_of_spells hfront, keywordsOf, List.length_map]
  have hor : Text.upper word ≠ "OR" := quotes.upper_around_ne (by simp [isNameQuote]) hor
  obtain ⟨hopening, hclosing⟩ := quotes.isNameQuote_of_mem_marks
  refine ⟨hverb, ?_, ?_⟩
  · refine mutatedTable?_of_words htable hopening hclosing (quotes.toList_around table) hwords ?_
    rw [hverb, hkeywords, hplace _ _ hor, hlength]
  · rintro ⟨after, rfl⟩
    have hinsert : verbOf sql = .insert := by
      rw [hverb, ← hread]
      rfl
    rw [replacesRows, hinsert, hkeywords]
    rfl

/-- Letter case, line ends, brackets and what comes after the table make no difference. -/
theorem read_writeForm_bracketed :
    let sql := "\n insert\tOr rePlace  into [or_note](id) VALUES (1); UPDATE tag"
    Spells ["INSERT", "OR", "REPLACE", "INTO"] "\n insert\tOr rePlace  into" ∧
      verbOf sql = .insert ∧ mutatedTable? sql = some "or_note" ∧ replacesRows sql = true := by
  intro sql
  have hword : ∀ word ∈ ["insert", "Or", "rePlace", "into"], IsWord word := by
    intro word hword
    refine isWord_of_isIdentifierText ?_
    revert word
    decide +kernel
  have hfront : Spells ["INSERT", "OR", "REPLACE", "INTO"] "\n insert\tOr rePlace  into" := by
    have hinsert : Spells ["INSERT"] ("\n " ++ "insert") :=
      .first (by decide) (hword _ (by simp)) (by decide)
    have hor : Spells ["INSERT", "OR"] ("\n " ++ "insert" ++ "\t" ++ "Or") :=
      hinsert.next (by decide) (by decide) (hword _ (by simp)) rfl
    have hreplace : Spells ["INSERT", "OR", "REPLACE"]
        ("\n " ++ "insert" ++ "\t" ++ "Or" ++ " " ++ "rePlace") :=
      hor.next (by decide) (by decide) (hword _ (by simp)) rfl
    have hinto : Spells ["INSERT", "OR", "REPLACE", "INTO"]
        ("\n " ++ "insert" ++ "\t" ++ "Or" ++ " " ++ "rePlace" ++ "  " ++ "into") :=
      hreplace.next (by decide) (by decide) (hword _ (by simp)) rfl
    exact hinto
  have hgap : IsGap " " := by decide
  have htable : IsPlainName "or_note" := by decide +kernel
  have hrest : ∀ c ∈ "(id) VALUES (1); UPDATE tag".toList.head?, isWordEnd c = true := by
    rintro c ⟨⟩
    decide
  obtain ⟨hverb, hread, hreplaces⟩ := read_writeForm (.insertOr (by decide)) hfront hgap
    (by decide) .square htable (by decide +kernel) hrest
  exact ⟨hfront, hverb, hread, hreplaces (by decide)⟩

end DaoGen.Sql
