import DaoGen.Text.Blank
import Mathlib.Data.List.TakeWhile

/-!
# Trimmed text

What trimming leaves of a text: the text is this, with characters of the trimmed class around it,
and it begins and ends with none of them itself.
-/
namespace DaoGen.Text

variable {p : Char → Bool} {cs word : List Char}

theorem trimBoth_eq_nil_iff : trimBoth p cs = [] ↔ ∀ c ∈ cs, p c = true := by
  rw [trimBoth, List.reverse_eq_nil_iff, List.dropWhile_eq_nil_iff]
  constructor
  · intro h
    have hnone : cs.dropWhile p = [] := by
      by_contra hne
      have hhead := List.head_dropWhile_not p hne
      rw [h _ (List.mem_reverse.mpr (List.head_mem hne))] at hhead
      cases hhead
    exact List.dropWhile_eq_nil_iff.mp hnone
  · intro h
    simp [List.dropWhile_eq_nil_iff.mpr h]

/-- Nothing is left of a text just if all of it is blank. -/
theorem trim_eq_empty_iff {s : String} : trim s = "" ↔ ∀ c ∈ s.toList, isBlank c = true := by
  rw [trim, String.ofList_eq_empty_iff, trimBoth_eq_nil_iff]

theorem trim_bne_empty_iff {s : String} :
    (trim s != "") = true ↔ ∃ c ∈ s.toList, isBlank c = false := by
  rw [bne_iff_ne, Ne, trim_eq_empty_iff]
  simp

/-- A text is a word with characters of a class around it. -/
def IsAround (p : Char → Bool) (word cs : List Char) : Prop :=
  ∃ before after, cs = before ++ word ++ after ∧ (∀ c ∈ before, p c = true) ∧
    ∀ c ∈ after, p c = true

/-- A word neither begins nor ends with a character of a class. -/
def IsTight (p : Char → Bool) (word : List Char) : Prop :=
  (∀ c ∈ word.head?, p c = false) ∧ ∀ c ∈ word.getLast?, p c = false

theorem isTight_of_forall (h : ∀ c ∈ word, p c = false) : IsTight p word :=
  ⟨fun c hc => h c (List.mem_of_mem_head? hc), fun c hc => h c (List.mem_of_mem_getLast? hc)⟩

theorem IsTight.reverse (h : IsTight p word) : IsTight p word.reverse := by
  rw [IsTight, List.head?_reverse, List.getLast?_reverse]
  exact ⟨h.2, h.1⟩

theorem dropWhile_append_of_isTight {before : List Char} (hbefore : ∀ c ∈ before, p c = true)
    (hword : IsTight p word) (hne : word ≠ []) (after : List Char) :
    (before ++ word ++ after).dropWhile p = word ++ after := by
  obtain ⟨c, rest, rfl⟩ := List.exists_cons_of_ne_nil hne
  have hc : p c = false := hword.1 c rfl
  rw [List.append_assoc, List.dropWhile_append_of_pos hbefore]
  exact List.dropWhile_cons_of_neg (by simp [hc])

theorem isAround_trimBoth (p : Char → Bool) (cs : List Char) : IsAround p (trimBoth p cs) cs := by
  have hback := List.takeWhile_append_dropWhile (p := p) (l := (cs.dropWhile p).reverse)
  refine ⟨cs.takeWhile p, ((cs.dropWhile p).reverse.takeWhile p).reverse, ?_, ?_, ?_⟩
  · rw [trimBoth, List.append_assoc, ← List.reverse_append, hback, List.reverse_reverse,
      List.takeWhile_append_dropWhile]
  · intro c hc
    exact List.mem_takeWhile_imp hc
  · intro c hc
    exact List.mem_takeWhile_imp (List.mem_reverse.mp hc)

theorem isTight_trimBoth (p : Char → Bool) (cs : List Char) : IsTight p (trimBoth p cs) := by
  have hhead {cs : List Char} : ∀ c ∈ (cs.dropWhile p).head?, p c = false := by
    intro c hc
    have hfirst := List.head?_dropWhile_not p cs
    rw [Option.mem_def.mp hc] at hfirst
    exact hfirst
  constructor
  · intro c hc
    rw [trimBoth, List.head?_reverse] at hc
    -- what is left of the reversed text is the end of it, so that its last character is the first
    obtain ⟨dropped, hdropped⟩ := List.dropWhile_suffix (l := (cs.dropWhile p).reverse) p
    have hlast : c ∈ (cs.dropWhile p).reverse.getLast? := by
      rw [← hdropped, List.getLast?_append, hc, Option.some_or]
      rfl
    rw [List.getLast?_reverse] at hlast
    exact hhead c hlast
  · intro c hc
    rw [trimBoth, List.getLast?_reverse] at hc
    exact hhead c hc

/-- What is left of a text is what its trimmed characters are around. -/
theorem trimBoth_eq_iff : trimBoth p cs = word ↔ IsAround p word cs ∧ IsTight p word := by
  constructor
  · rintro rfl
    exact ⟨isAround_trimBoth p cs, isTight_trimBoth p cs⟩
  · rintro ⟨⟨before, after, rfl, hbefore, hafter⟩, htight⟩
    by_cases hne : word = []
    · subst hne
      rw [trimBoth_eq_nil_iff, List.append_nil]
      exact List.forall_mem_append.mpr ⟨hbefore, hafter⟩
    · have hback : (after.reverse ++ word.reverse ++ []).dropWhile p = word.reverse ++ [] :=
        dropWhile_append_of_isTight (by simpa) htight.reverse (by simpa) []
      rw [List.append_nil, List.append_nil] at hback
      rw [trimBoth, dropWhile_append_of_isTight hbefore htight hne, List.reverse_append, hback,
        List.reverse_reverse]

theorem trim_ofList_eq_iff {cs : List Char} {word : String} :
    trim (String.ofList cs) = word ↔
      IsAround isBlank word.toList cs ∧ IsTight isBlank word.toList := by
  rw [trim, String.toList_ofList, ← trimBoth_eq_iff, ← String.toList_inj, String.toList_ofList]

end DaoGen.Text
