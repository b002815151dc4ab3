import DaoGen.Proofs.Code.Name
import DaoGen.Proofs.Sql.Binding
import DaoGen.Proofs.Sql.Words
import DaoGen.Proofs.Text.Trimming
import DaoGen.Sql.Write

/-!
# Words of generated writes

Names and placeholders are words. In a list between brackets they have a comma or the closing
bracket stuck to them, which makes them differ from every keyword. A table stands between blanks, so
it is found at its place among the words.

## Main results

* `isWord_of_isIdentifierText`: an identifier is one word.
* `upper_ne_update_of_mem_wordsOf_rowValues`: `UPDATE` is no word of a new row, even as a column.
* `read_front`: what is read of a statement whose table stands between blanks.
-/
namespace DaoGen.Sql

/-! ## Words of names -/

/-- The code points of all ends of words, and of gaps. -/
def wordEndCodes : List Nat := 0x28 :: 0x3b :: Code.gapCodes

theorem toNat_mem_wordEndCodes {c : Char} (h : isWordEnd c = true) : c.toNat ∈ wordEndCodes := by
  simp only [isWordEnd, Bool.or_eq_true, beq_iff_eq] at h
  obtain (hblank | rfl) | rfl := h
  · have hgap : Code.isGap c = true := by simp [Code.isGap, hblank]
    exact .tail _ (.tail _ (Code.toNat_mem_gapCodes hgap))
  · decide
  · decide

/-- A class without the ends of words has no character that ends a word. -/
theorem not_isWordEnd_of_class {p : Char → Bool}
    (hp : ∀ n ∈ wordEndCodes, p (Char.ofNat n) = false) {c : Char} (h : p c = true) :
    isWordEnd c = false := by
  by_contra hend
  have hnot := hp _ (toNat_mem_wordEndCodes (by simpa using hend))
  rw [Char.ofNat_toNat, h] at hnot
  cases hnot

theorem not_isIdentifierStart_of_mem_wordEndCodes :
    ∀ n ∈ wordEndCodes, Text.isIdentifierStart (Char.ofNat n) = false := by
  rw [wordEndCodes, List.forall_mem_cons, List.forall_mem_cons]
  exact ⟨by decide, by decide, Code.not_isIdentifierStart_of_mem_gapCodes⟩

theorem not_isIdentifierContinue_of_mem_wordEndCodes :
    ∀ n ∈ wordEndCodes, Text.isIdentifierContinue (Char.ofNat n) = false := by
  decide +kernel

theorem not_isNameChar_of_mem_wordEndCodes :
    ∀ n ∈ wordEndCodes, isNameChar (Char.ofNat n) = false := by
  decide +kernel

/-- An identifier is one word. -/
theorem isWord_of_isIdentifierText {s : String} (h : Text.isIdentifierText s.toList = true) :
    IsWord s := by
  obtain ⟨c, cs, hcs⟩ : ∃ c cs, s.toList = c :: cs := by
    refine List.exists_cons_of_ne_nil fun hnil => ?_
    rw [hnil] at h
    cases h
  rw [hcs, Text.isIdentifierText, Bool.and_eq_true, List.all_eq_true] at h
  obtain ⟨hstart, hcontinue⟩ := h
  refine ⟨by simp [hcs], ?_⟩
  rw [hcs, List.forall_mem_cons]
  exact ⟨not_isWordEnd_of_class not_isIdentifierStart_of_mem_wordEndCodes hstart, fun d hd =>
    not_isWordEnd_of_class not_isIdentifierContinue_of_mem_wordEndCodes (hcontinue d hd)⟩

theorem isWord_placeholder (dialect : Dialect) (position : Nat) :
    IsWord (dialect.placeholder position) := by
  refine ⟨by cases dialect <;> simp [Dialect.placeholder], fun c hc => ?_⟩
  obtain rfl | rfl | hname := mark_or_isNameChar_of_mem_placeholder hc
  · decide
  · decide
  · exact not_isWordEnd_of_class not_isNameChar_of_mem_wordEndCodes hname

/-! ## Plain names of tables -/

/-- A plain name begins with a letter or an underscore and goes on with letters, digits and
underscores, all of them ASCII. -/
def IsPlainName (table : String) : Prop :=
  goesOn isNameStart table.toList = true ∧ table.toList.all isNameChar = true

instance (table : String) : Decidable (IsPlainName table) :=
  inferInstanceAs (Decidable (_ ∧ _))

namespace IsPlainName

variable {table : String}

theorem ne_nil (h : IsPlainName table) : table.toList ≠ [] := by
  intro hnil
  have hstart := h.1
  rw [hnil] at hstart
  cases hstart

theorem isNameChar (h : IsPlainName table) : ∀ c ∈ table.toList, isNameChar c = true :=
  List.all_eq_true.mp h.2

theorem isWord (h : IsPlainName table) : IsWord table where
  ne_nil := h.ne_nil
  not_isWordEnd c hc :=
    not_isWordEnd_of_class not_isNameChar_of_mem_wordEndCodes (h.isNameChar c hc)

theorem not_isNameQuote (h : IsPlainName table) : ∀ c ∈ table.toList, isNameQuote c = false := by
  intro c hc
  rw [Bool.eq_false_iff]
  intro hquote
  simp only [isNameQuote, Bool.or_eq_true, beq_iff_eq] at hquote
  have hname := h.isNameChar c hc
  obtain ((rfl | rfl) | rfl) | rfl := hquote <;> exact absurd hname (by decide)

/-- A plain name is what is left of itself between quotes. -/
theorem trimBoth (h : IsPlainName table) {opening closing : List Char}
    (hopening : ∀ c ∈ opening, isNameQuote c = true)
    (hclosing : ∀ c ∈ closing, isNameQuote c = true) :
    Text.trimBoth isNameQuote (opening ++ table.toList ++ closing) = table.toList :=
  Text.trimBoth_eq_iff.mpr ⟨⟨opening, closing, rfl, hopening, hclosing⟩,
    Text.isTight_of_forall h.not_isNameQuote⟩

end IsPlainName

/-! ## Lists in brackets -/

/-- The words of a list that a bracket closes have a comma or the bracket at their ends. -/
theorem mark_mem_of_mem_wordsOf_list {items : List String} (hne : items ≠ [])
    (hitems : ∀ item ∈ items, IsWord item) {w : String}
    (hw : w ∈ wordsOf (", ".intercalate items ++ ")")) : ',' ∈ w.toList ∨ ')' ∈ w.toList := by
  have hcomma : ∀ c ∈ ",".toList, isWordEnd c = false := by
    simp [show isWordEnd ',' = false by decide]
  have hcloses : ∀ c ∈ ")".toList, isWordEnd c = false := by
    simp [show isWordEnd ')' = false by decide]
  induction items with
  | nil => exact absurd rfl hne
  | cons item rest ih =>
    obtain ⟨hitem, hrest⟩ := List.forall_mem_cons.mp hitems
    cases rest with
    | nil =>
      rw [String.intercalate_singleton, wordsOf_of_isWord (hitem.append hcloses),
        List.mem_singleton] at hw
      exact .inr (by simp [hw])
    | cons next rest =>
      have htext : ", ".intercalate (item :: next :: rest) ++ ")" =
          (item ++ ",") ++ (" " ++ (", ".intercalate (next :: rest) ++ ")")) := by
        rw [String.intercalate_cons_cons]
        simp only [String.append_assoc]
        rfl
      rw [htext, wordsOf_append_of_head? (c := ' ') (by simp) (by decide), wordsOf_blank_append,
        wordsOf_of_isWord (hitem.append hcomma), List.mem_append, List.mem_singleton] at hw
      obtain rfl | hw := hw
      · exact .inl (by simp)
      · exact ih (List.cons_ne_nil next rest) hrest hw

theorem upper_ne_update_of_mem_wordsOf_list {items : List String} (hne : items ≠ [])
    (hitems : ∀ item ∈ items, IsWord item) {w : String}
    (hw : w ∈ wordsOf (", ".intercalate items ++ ")")) : Text.upper w ≠ "UPDATE" := by
  obtain hmark | hmark := mark_mem_of_mem_wordsOf_list hne hitems hw
  · exact upper_ne hmark (by decide) (by decide)
  · exact upper_ne hmark (by decide) (by decide)

/-- `UPDATE` is none of the words of a new row. -/
theorem upper_ne_update_of_mem_wordsOf_rowValues {dialect : Dialect} {fields : List Field}
    (hfields : ∀ field ∈ fields, IsWord field.column) {w : String}
    (hw : w ∈ wordsOf (rowValues dialect fields)) : Text.upper w ≠ "UPDATE" := by
  unfold rowValues at hw
  split at hw
  · have hwords : wordsOf "DEFAULT VALUES" = ["DEFAULT", "VALUES"] := by decide +kernel
    rw [hwords] at hw
    exact (by decide +kernel : ∀ w ∈ ["DEFAULT", "VALUES"], Text.upper w ≠ "UPDATE") w hw
  · next hempty =>
    have hne : fields ≠ [] := by simpa using hempty
    have htext : "(" ++ columnList fields ++ ") VALUES (" ++
        dialect.placeholders fields.length ++ ")" =
          "(" ++ (columnList fields ++ ")") ++ (" VALUES (" ++
            (dialect.placeholders fields.length ++ ")")) := by
      rw [show ") VALUES (" = ")" ++ " VALUES (" by rfl]
      simp only [String.append_assoc]
    have hwords : wordsOf "(" = [] ∧ wordsOf " VALUES (" = ["VALUES"] := by decide +kernel
    rw [htext, wordsOf_append_of_head? (c := ' ') (by simp) (by decide),
      wordsOf_append_of_getLast? (s := "(") (c := '(') (by decide) (by decide),
      wordsOf_append_of_getLast? (s := " VALUES (") (c := '(') (by decide) (by decide),
      hwords.1, hwords.2, List.nil_append, List.singleton_append, List.mem_append,
      List.mem_cons] at hw
    obtain hw | rfl | hw := hw
    · refine upper_ne_update_of_mem_wordsOf_list (by simpa using hne) ?_ hw
      simpa using hfields
    · decide +kernel
    · refine upper_ne_update_of_mem_wordsOf_list (by simpa using hne) (fun item hitem => ?_) hw
      obtain ⟨i, _, rfl⟩ := List.mem_map.mp hitem
      exact isWord_placeholder dialect i

theorem hasDoUpdate_keywordsOf (before after : String) :
    hasDoUpdate (keywordsOf (before ++ (" DO UPDATE SET " ++ after))) = true := by
  rw [keywordsOf_append_of_head? (c := ' ') (by simp) (by decide),
    keywordsOf_append_of_getLast? (c := ' ') (by decide) (by decide),
    show keywordsOf " DO UPDATE SET " = ["DO", "UPDATE", "SET"] by decide +kernel]
  exact hasDoUpdate_of_append ..

/-! ## Statements with a table -/

section Statements

variable {table front rest : String} {keywords : List String}

/-- The table is read at its place among the words, without the quotes around it. -/
theorem mutatedTable?_of_words {sql word : String} {before after : List String}
    {opening closing : List Char} (htable : IsPlainName table)
    (hopening : ∀ c ∈ opening, isNameQuote c = true)
    (hclosing : ∀ c ∈ closing, isNameQuote c = true)
    (hword : word.toList = opening ++ table.toList ++ closing)
    (hwords : wordsOf sql = before ++ word :: after)
    (hplace : tablePlace? (verbOf sql) (keywordsOf sql) = some before.length) :
    mutatedTable? sql = some table := by
  have htrim := htable.trimBoth hopening hclosing
  rw [← hword] at htrim
  simp [mutatedTable?, hplace, hwords, htrim, htable.ne_nil]

/-- What is read of a statement whose table stands between blanks. -/
theorem read_front (htable : IsPlainName table) (hrest : rest.toList.head? = some ' ')
    (hblank : front.toList.getLast? = some ' ') (hfront : keywordsOf front = keywords)
    (hne : keywords ≠ [])
    (hplace : tablePlace? (verbOf front) (keywords ++ Text.upper table :: keywordsOf rest) =
      some keywords.length) :
    verbOf (front ++ table ++ rest) = verbOf front ∧
      keywordsOf (front ++ table ++ rest) =
        keywords ++ Text.upper table :: keywordsOf rest ∧
      mutatedTable? (front ++ table ++ rest) = some table := by
  have hwords := wordsOf_append_append hblank htable.isWord hrest
  have hkeywords : keywordsOf (front ++ table ++ rest) =
      keywords ++ Text.upper table :: keywordsOf rest := by
    rw [keywordsOf, hwords, ← hfront]
    simp [keywordsOf]
  have hverb : verbOf (front ++ table ++ rest) = verbOf front := by
    rw [verbOf, verbOf, hkeywords, hfront, List.head?_append_of_ne_nil _ hne]
  have hlength : (wordsOf front).length = keywords.length := by simp [← hfront, keywordsOf]
  have hnone : ∀ c ∈ ([] : List Char), isNameQuote c = true := by simp
  have htableRead := mutatedTable?_of_words htable hnone hnone (by simp) hwords
    (by rw [hverb, hkeywords, hplace, hlength])
  exact ⟨hverb, hkeywords, htableRead⟩

end Statements

end DaoGen.Sql
