import DaoGen.Sql.Statement
import Mathlib.Data.List.DropRight
import Mathlib.Data.List.TakeWhile

/-!
# Words of statements

A text is cut into words at delimiters. Cuts at a delimiter do not touch the words on either side
of it, and any other character glues what stands beside it into one word. So the words of a
generated text are read off its parts, and a word with a quote in it is no keyword.

## Main results

* `Text.runsOutside_append_delimiter`: the runs of a text are those before and after a delimiter.
* `Text.runsOutside_append_glue`: the run around a character that is no delimiter.
* `Sql.hasDoUpdate_append_cons`: two words next to each other, over appends.
-/
namespace DaoGen

namespace Text

/-! ## Runs -/

variable {p : Char → Bool} {c d : Char} {a b u : List Char}

@[simp] theorem runsOutside_nil (p : Char → Bool) : runsOutside p [] = [] := rfl

/-- A character that is no delimiter begins a run that goes up to the next delimiter. -/
theorem runsOutside_cons_of_not (h : p c = false) (cs : List Char) :
    runsOutside p (c :: cs) =
      (c :: cs.takeWhile (!p ·)) :: runsOutside p (cs.dropWhile (!p ·)) := by
  induction cs generalizing c with
  | nil => simp [runsOutside, h]
  | cons d ds ih =>
    have hnone (hlater : runsOutside p (d :: ds) = []) : runsOutside p (c :: d :: ds) = [[c]] := by
      conv_lhs => unfold runsOutside
      rw [h, if_neg Bool.false_ne_true, hlater]
    have hsome {run : List Char} {runs : List (List Char)}
        (hlater : runsOutside p (d :: ds) = run :: runs) : runsOutside p (c :: d :: ds) =
          if p d then [c] :: run :: runs else (c :: run) :: runs := by
      conv_lhs => unfold runsOutside
      rw [h, if_neg Bool.false_ne_true, hlater]
    cases hd : p d with
    | true =>
      cases hlater : runsOutside p (d :: ds) with
      | nil => simp [hd, hlater, hnone]
      | cons run runs => simp [hd, hlater, hsome hlater]
    | false => simp [hsome (ih hd), hd]

/-- A run is followed by what is left after the next delimiter. -/
theorem runsOutside_append_of_not (hne : u ≠ []) (hu : ∀ c ∈ u, p c = false) (b : List Char) :
    runsOutside p (u ++ b) =
      (u ++ b.takeWhile (!p ·)) :: runsOutside p (b.dropWhile (!p ·)) := by
  obtain ⟨c, cs, rfl⟩ := List.exists_cons_of_ne_nil hne
  have hcs : ∀ d ∈ cs, (!p d) = true := fun d hd => by simp [hu d (List.mem_cons_of_mem c hd)]
  rw [List.cons_append, runsOutside_cons_of_not (hu c List.mem_cons_self),
    List.takeWhile_append_of_pos hcs, List.dropWhile_append_of_pos hcs, List.cons_append]

/-- Text without delimiters is one run. -/
theorem runsOutside_of_not (hne : u ≠ []) (hu : ∀ c ∈ u, p c = false) : runsOutside p u = [u] := by
  simpa using runsOutside_append_of_not hne hu []

/-- The runs of a text are those before and those after a delimiter. -/
theorem runsOutside_append_delimiter (h : p d = true) (a b : List Char) :
    runsOutside p (a ++ d :: b) = runsOutside p a ++ runsOutside p b := by
  obtain ⟨n, hn⟩ : ∃ n, a.length = n := ⟨_, rfl⟩
  induction n using Nat.strong_induction_on generalizing a with
  | _ n ih =>
    cases a with
    | nil => simp [runsOutside_cons_delimiter h]
    | cons c cs =>
      cases hc : p c with
      | true =>
        rw [List.cons_append, runsOutside_cons_delimiter hc, runsOutside_cons_delimiter hc]
        exact ih cs.length (by simp [← hn]) cs rfl
      | false =>
        have htake : (cs ++ d :: b).takeWhile (!p ·) = cs.takeWhile (!p ·) := by
          rw [List.takeWhile_append]
          split
          · next hall => simp [h, (List.takeWhile_prefix _).eq_of_length hall]
          · rfl
        have hdrop : (cs ++ d :: b).dropWhile (!p ·) = cs.dropWhile (!p ·) ++ d :: b := by
          simp [List.dropWhile_append, h]
        have hlength : (cs.dropWhile (!p ·)).length < n := by
          have := (List.dropWhile_suffix (!p ·) (l := cs)).length_le
          rw [List.length_cons] at hn
          omega
        rw [List.cons_append, runsOutside_cons_of_not hc, runsOutside_cons_of_not hc, htake, hdrop,
          ih _ hlength _ rfl, List.cons_append]

/-- A character that is no delimiter glues the end of the text before it and the beginning of the
text after it. -/
theorem runsOutside_append_glue (h : p c = false) (a b : List Char) :
    runsOutside p (a ++ c :: b) =
      runsOutside p (a.rdropWhile (!p ·)) ++
        (a.rtakeWhile (!p ·) ++ c :: b.takeWhile (!p ·)) ::
          runsOutside p (b.dropWhile (!p ·)) := by
  have hrun : runsOutside p (a.rtakeWhile (!p ·) ++ c :: b) =
      (a.rtakeWhile (!p ·) ++ c :: b.takeWhile (!p ·)) :: runsOutside p (b.dropWhile (!p ·)) := by
    have hu : ∀ d ∈ a.rtakeWhile (!p ·) ++ [c], p d = false := by
      intro d hd
      rcases List.mem_append.mp hd with hd | hd
      · simpa using List.mem_rtakeWhile_imp hd
      · rwa [List.mem_singleton.mp hd]
    simpa using runsOutside_append_of_not (by simp) hu b
  have hsplit : a = a.rdropWhile (!p ·) ++ a.rtakeWhile (!p ·) := by simp
  by_cases hnil : a.rdropWhile (!p ·) = []
  · rw [hnil, List.nil_append] at hsplit
    rw [hnil, runsOutside_nil, List.nil_append, ← hrun, ← hsplit]
  · have hlast := List.rdropWhile_last_not (!p ·) a hnil
    generalize hd : (a.rdropWhile (!p ·)).getLast hnil = d at hlast
    have hdelimiter : p d = true := by simpa using hlast
    have hfront : a.rdropWhile (!p ·) = (a.rdropWhile (!p ·)).dropLast ++ [d] := by
      rw [← hd, List.dropLast_append_getLast]
    conv_lhs => rw [hsplit, hfront]
    rw [hfront]
    simp [runsOutside_append_delimiter hdelimiter, hrun]

end Text

/-! ## Words -/

namespace Sql

variable {s t : String} {c : Char}

/-- A text that is one word. -/
structure IsWord (s : String) : Prop where
  ne_nil : s.toList ≠ []
  not_isWordEnd : ∀ c ∈ s.toList, isWordEnd c = false

theorem IsWord.append (hs : IsWord s) (ht : ∀ c ∈ t.toList, isWordEnd c = false) :
    IsWord (s ++ t) where
  ne_nil := by simp [hs.ne_nil]
  not_isWordEnd := by
    rw [String.toList_append, List.forall_mem_append]
    exact ⟨hs.not_isWordEnd, ht⟩

theorem wordsOf_of_isWord (h : IsWord s) : wordsOf s = [s] := by
  simp [wordsOf, Text.runsOutside_of_not h.ne_nil h.not_isWordEnd]

/-- The words of a text that ends between words come before those of what follows. -/
theorem wordsOf_append_of_getLast? (hlast : s.toList.getLast? = some c) (hc : isWordEnd c = true)
    (t : String) : wordsOf (s ++ t) = wordsOf s ++ wordsOf t := by
  obtain ⟨front, hfront⟩ := List.getLast?_eq_some_iff.mp hlast
  simp [wordsOf, hfront, Text.runsOutside_append_delimiter hc]

/-- The words of a text that begins between words come after those of what is before it. -/
theorem wordsOf_append_of_head? (hhead : t.toList.head? = some c) (hc : isWordEnd c = true)
    (s : String) : wordsOf (s ++ t) = wordsOf s ++ wordsOf t := by
  obtain ⟨rest, hrest⟩ := List.head?_eq_some_iff.mp hhead
  simp [wordsOf, hrest, Text.runsOutside_append_delimiter hc, Text.runsOutside_cons_delimiter hc]

/-- A blank before a text is none of its words. -/
@[simp] theorem wordsOf_blank_append (s : String) : wordsOf (" " ++ s) = wordsOf s := by
  rw [wordsOf_append_of_getLast? (c := ' ') (by decide) (by decide),
    show wordsOf " " = [] by decide, List.nil_append]

@[simp] theorem keywordsOf_blank_append (s : String) : keywordsOf (" " ++ s) = keywordsOf s := by
  simp [keywordsOf]

theorem keywordsOf_of_isWord (h : IsWord s) : keywordsOf s = [Text.upper s] := by
  simp [keywordsOf, wordsOf_of_isWord h]

theorem keywordsOf_append_of_head? (hhead : t.toList.head? = some c) (hc : isWordEnd c = true)
    (s : String) : keywordsOf (s ++ t) = keywordsOf s ++ keywordsOf t := by
  simp [keywordsOf, wordsOf_append_of_head? hhead hc]

theorem keywordsOf_append_of_getLast? (hlast : s.toList.getLast? = some c)
    (hc : isWordEnd c = true) (t : String) :
    keywordsOf (s ++ t) = keywordsOf s ++ keywordsOf t := by
  simp [keywordsOf, wordsOf_append_of_getLast? hlast hc]

/-- A word between blanks. -/
theorem wordsOf_append_append {word : String} (hs : s.toList.getLast? = some ' ')
    (hword : IsWord word) (ht : t.toList.head? = some ' ') :
    wordsOf (s ++ word ++ t) = wordsOf s ++ word :: wordsOf t := by
  rw [wordsOf_append_of_head? ht (by decide), wordsOf_append_of_getLast? hs (by decide),
    wordsOf_of_isWord hword, List.append_assoc, List.singleton_append]

/-- A character without a capital form stays in a text that is put in upper case. -/
theorem mem_upper (hmem : c ∈ s.toList) (hc : Text.upperChar c = [c]) :
    c ∈ (Text.upper s).toList := by
  rw [Text.upper, String.toList_ofList, Text.upperList, List.mem_flatMap]
  exact ⟨c, hmem, hc ▸ List.mem_singleton_self c⟩

/-- A word in upper case is not the given one, which is without a character of the word. -/
theorem upper_ne {keyword : String} (hmem : c ∈ s.toList) (hc : Text.upperChar c = [c])
    (hkeyword : c ∉ keyword.toList) : Text.upper s ≠ keyword := by
  rintro rfl
  exact hkeyword (mem_upper hmem hc)

/-! ## Two words next to each other -/

@[simp] theorem hasDoUpdate_nil : hasDoUpdate [] = false := rfl

theorem hasDoUpdate_cons (w : String) (rest : List String) :
    hasDoUpdate (w :: rest) =
      (decide (w = "DO" ∧ rest.head? = some "UPDATE") || hasDoUpdate rest) := by
  conv_lhs => unfold hasDoUpdate
  split
  · next heq =>
    cases heq
    rfl
  · next hnot heq =>
    cases heq
    have hfalse : ¬ (w = "DO" ∧ rest.head? = some "UPDATE") := by
      rintro ⟨hdo, hupdate⟩
      obtain ⟨tail, htail⟩ := List.head?_eq_some_iff.mp hupdate
      exact hnot tail hdo htail
    rw [decide_eq_false hfalse, Bool.false_or]
  · next heq => cases heq

@[simp] theorem hasDoUpdate_singleton (w : String) : hasDoUpdate [w] = false := by
  simp [hasDoUpdate_cons]

/-- The word `UPDATE` is not the first of several if it stands nowhere else. -/
theorem hasDoUpdate_cons_of_notMem {l : List String} (h : "UPDATE" ∉ l) (w : String) :
    hasDoUpdate (w :: l) = false := by
  induction l generalizing w with
  | nil => exact hasDoUpdate_singleton w
  | cons v rest ih =>
    obtain ⟨hne, hrest⟩ := List.ne_and_not_mem_of_not_mem_cons h
    rw [hasDoUpdate_cons, ih hrest v]
    simp [Ne.symm hne]

theorem hasDoUpdate_of_append (a b : List String) :
    hasDoUpdate (a ++ "DO" :: "UPDATE" :: b) = true := by
  induction a with
  | nil => rfl
  | cons w rest ih => rw [List.cons_append, hasDoUpdate_cons, ih, Bool.or_true]

/-- The words `DO UPDATE` stand before or after any other word. -/
theorem hasDoUpdate_append_cons {w : String} (hdo : w ≠ "DO") (hupdate : w ≠ "UPDATE")
    (a b : List String) : hasDoUpdate (a ++ w :: b) = (hasDoUpdate a || hasDoUpdate b) := by
  induction a with
  | nil => simp [hasDoUpdate_cons, hdo]
  | cons v rest ih =>
    have hhead : (rest ++ w :: b).head? = some "UPDATE" ↔ rest.head? = some "UPDATE" := by
      cases rest <;> simp [hupdate]
    rw [List.cons_append, hasDoUpdate_cons, hasDoUpdate_cons, ih, Bool.or_assoc]
    simp only [hhead]

end Sql

end DaoGen
