import DaoGen.Proofs.Code.Name
import Mathlib.Data.List.Induction
import Mathlib.Data.List.TakeWhile

/-!
# Names with endings

The name of generated code may be that of a declaration with an ending put to it. Whether the result
is a name depends on the declared part, which can have gaps, comments and the like in it, and not on
the ending: readers go the same way up to the ending, and then over it.

## Main definitions

* `IsEnding`: letters that no reserved word ends with.

## Main results

* `parseName_append`: with every ending a text is a name, or with none.
-/
namespace DaoGen.Code

open Text

attribute [grind =] closeComment startsDoc

/-- Letters that no reserved word ends with. -/
structure IsEnding (e : List Char) : Prop where
  letters : ∀ c ∈ e, c.isAlpha = true
  last : "Impl".toList <:+ e

namespace IsEnding

variable {e : List Char} (h : IsEnding e)

include h

theorem exists_cons : ∃ c cs, e = c :: cs ∧ c.isAlpha = true := by
  cases e with
  | nil =>
    have hlast := h.last
    simp at hlast
  | cons c cs => exact ⟨c, cs, rfl, h.letters c List.mem_cons_self⟩

end IsEnding

theorem isIdentifierStart_of_isAlpha {c : Char} (h : c.isAlpha = true) :
    isIdentifierStart c = true := by
  have hcode : c.toNat < 128 := by
    have hletter := toNat_of_isAlpha h
    omega
  simp [isIdentifierStart, hcode, h]

theorem isIdentifierContinue_of_isAlpha {c : Char} (h : c.isAlpha = true) :
    isIdentifierContinue c = true := by
  have hcode : c.toNat < 128 := by
    have hletter := toNat_of_isAlpha h
    omega
  simp [isIdentifierContinue, hcode, Char.isAlphanum, h]

/-! ## Comments -/

/-- Letters do not end a comment. -/
theorem closeComment_letters {e : List Char} (he : ∀ c ∈ e, c.isAlpha = true) (depth : Nat) :
    closeComment depth e = none := by
  induction e generalizing depth with
  | nil => cases depth <;> simp [closeComment]
  | cons c cs ih =>
    obtain ⟨hc, hcs⟩ := List.forall_mem_cons.mp he
    have hslash : c ≠ '/' := by
      rintro rfl
      cases hc
    have hstar : c ≠ '*' := by
      rintro rfl
      cases hc
    cases depth with
    | zero => simp [closeComment, hslash]
    | succ depth =>
      cases depth <;> simp [closeComment, hslash, hstar, ih hcs]

/-- What is no letter stands before the letters at the end. -/
theorem eq_cons_of_append_eq_cons {e s rest : List Char} {d : Char}
    (he : ∀ c ∈ e, c.isAlpha = true) (hd : d.isAlpha = false) (h : s ++ e = d :: rest) :
    ∃ before, s = d :: before ∧ rest = before ++ e := by
  cases s with
  | nil =>
    obtain rfl : e = d :: rest := h
    rw [he d List.mem_cons_self] at hd
    cases hd
  | cons c before =>
    obtain ⟨rfl, rfl⟩ := List.cons.inj h
    exact ⟨before, rfl, rfl⟩

/-- A comment ends before the letters after it. -/
theorem closeComment_append {e : List Char} (he : ∀ c ∈ e, c.isAlpha = true) (depth : Nat)
    (s : List Char) : closeComment depth (s ++ e) = (closeComment depth s).map (· ++ e) := by
  induction depth, s using closeComment.induct with
  | case1 depth cs ih => simpa [closeComment] using ih
  | case2 cs hopen =>
    have hopen' : ∀ rest, cs ++ e = '/' :: '*' :: rest → False := by
      intro rest h
      obtain ⟨before, rfl, hrest⟩ := eq_cons_of_append_eq_cons he (by decide) h
      obtain ⟨before, rfl, _⟩ := eq_cons_of_append_eq_cons he (by decide) hrest.symm
      exact hopen before rfl
    rw [closeComment.eq_2 _ hopen, closeComment.eq_2 _ hopen']
    rfl
  | case3 cs => simp [closeComment]
  | case4 depth cs ih => simpa [closeComment] using ih
  | case5 depth c cs hopen hzero hone hmore ih =>
    have hslash {rest : List Char} (h : cs ++ e = '/' :: rest) : ∃ before, cs = '/' :: before :=
      (eq_cons_of_append_eq_cons he (by decide) h).imp fun _ => And.left
    have hstar {rest : List Char} (h : cs ++ e = '*' :: rest) : ∃ before, cs = '*' :: before :=
      (eq_cons_of_append_eq_cons he (by decide) h).imp fun _ => And.left
    rw [List.cons_append, closeComment.eq_5 depth c cs hopen hzero hone hmore, ← ih]
    refine closeComment.eq_5 depth c (cs ++ e) ?_ hzero ?_ ?_
    · intro rest hc h
      obtain ⟨before, hbefore⟩ := hstar h
      exact hopen before hc hbefore
    · intro rest hdepth hc h
      obtain ⟨before, hbefore⟩ := hslash h
      exact hone before hdepth hc hbefore
    · intro depth' rest hdepth hc h
      obtain ⟨before, hbefore⟩ := hslash h
      exact hmore depth' before hdepth hc hbefore
  | case6 depth hzero =>
    rw [List.nil_append, closeComment_letters he, closeComment.eq_6 depth hzero]
    rfl

theorem length_of_closeComment {depth : Nat} {cs rest : List Char}
    (h : closeComment depth cs = some rest) : rest.length ≤ cs.length := by
  induction depth, cs using closeComment.induct with
  | case1 depth cs ih =>
    have hlength := ih (by simpa [closeComment] using h)
    simp
    omega
  | case2 cs hopen =>
    rw [closeComment.eq_2 _ hopen] at h
    cases h
  | case3 cs =>
    obtain rfl : cs = rest := by simpa [closeComment] using h
    simp
    omega
  | case4 depth cs ih =>
    have hlength := ih (by simpa [closeComment] using h)
    simp
    omega
  | case5 depth c cs hopen hzero hone hmore ih =>
    rw [closeComment.eq_5 depth c cs hopen hzero hone hmore] at h
    exact Nat.le_succ_of_le (ih h)
  | case6 depth hzero =>
    rw [closeComment.eq_6 depth hzero] at h
    cases h

theorem snd_splitLine_cons {c : Char} {cs : List Char} (hline : c ≠ '\n')
    (hreturn : ∀ rest, c = '\r' → cs ≠ '\n' :: rest) :
    (splitLine (c :: cs)).2 = (splitLine cs).2 := by
  rw [splitLine.eq_4 c cs hline fun rest hc h => hreturn rest hc h]

/-- Letters do not end a line. -/
theorem snd_splitLine_letters {e : List Char} (he : ∀ c ∈ e, c.isAlpha = true) :
    (splitLine e).2 = [] := by
  induction e with
  | nil => rfl
  | cons c cs ih =>
    obtain ⟨hc, hcs⟩ := List.forall_mem_cons.mp he
    have hother {d : Char} (hd : d.isAlpha = false) : c ≠ d := by
      rintro rfl
      rw [hc] at hd
      cases hd
    rw [snd_splitLine_cons (hother (by decide)) fun _ h => absurd h (hother (by decide)), ih hcs]

/-- A line ends before the letters after it, or these belong to it. -/
theorem snd_splitLine_append (s : List Char) :
    (∃ rest, rest.length ≤ s.length ∧ ∀ e : List Char, (∀ c ∈ e, c.isAlpha = true) →
      (splitLine (s ++ e)).2 = rest ++ e) ∨
    ∀ e : List Char, (∀ c ∈ e, c.isAlpha = true) → (splitLine (s ++ e)).2 = [] := by
  induction s using splitLine.induct with
  | case1 => exact .inr fun e he => snd_splitLine_letters he
  | case2 cs => exact .inl ⟨'\n' :: cs, Nat.le_refl _, fun e _ => rfl⟩
  | case3 cs => exact .inl ⟨'\n' :: cs, by simp, fun e _ => rfl⟩
  | case4 c cs hline hreturn _ _ _ ih =>
    have hcons {e : List Char} (he : ∀ c ∈ e, c.isAlpha = true) :
        (splitLine (c :: cs ++ e)).2 = (splitLine (cs ++ e)).2 := by
      refine snd_splitLine_cons hline fun rest hc h => ?_
      obtain ⟨before, hbefore, _⟩ := eq_cons_of_append_eq_cons he (by decide) h
      exact hreturn before hc hbefore
    rcases ih with ⟨rest, hlength, ih⟩ | ih
    · exact .inl ⟨rest, Nat.le_succ_of_le hlength, fun e he => (hcons he).trans (ih e he)⟩
    · exact .inr fun e he => (hcons he).trans (ih e he)

/-! ## Gaps -/

theorem startsDoc_line (c : Char) (s : List Char) : startsDoc ('/' :: '/' :: c :: s) =
    (c == '!' || c == '/' && !s.head?.any (· == '/')) := by
  by_cases hmark : c = '!'
  · subst hmark
    rfl
  · by_cases hslash : c = '/'
    · subst hslash
      cases s with
      | nil => rfl
      | cons d s => by_cases hd : d = '/' <;> simp [startsDoc, hd]
    · simp [startsDoc, hmark, hslash]

theorem startsDoc_block (c : Char) (s : List Char) : startsDoc ('/' :: '*' :: c :: s) =
    (c == '!' || c == '*' && !s.head?.any fun d => d == '*' || d == '/') := by
  by_cases hmark : c = '!'
  · subst hmark
    rfl
  · by_cases hstar : c = '*'
    · subst hstar
      cases s with
      | nil => rfl
      | cons d s =>
        by_cases hd : d = '*'
        · simp [startsDoc, hd]
        · by_cases hd' : d = '/' <;> simp [startsDoc, hd, hd']
    · simp [startsDoc, hmark, hstar]

theorem startsDoc_other {a b : Char} (s : List Char) (h : a = '/' → b ≠ '/' ∧ b ≠ '*') :
    startsDoc (a :: b :: s) = false := by
  by_cases ha : a = '/'
  · obtain ⟨hslash, hstar⟩ := h ha
    simp [startsDoc, ha, hslash, hstar]
  · simp [startsDoc, ha]

/-- Whether text begins with a documentation comment is seen before the letters at its end. -/
theorem startsDoc_append {e : List Char} (he : ∀ c ∈ e, c.isAlpha = true) (s : List Char) :
    startsDoc (s ++ e) = startsDoc s := by
  cases e with
  | nil => rw [List.append_nil]
  | cons x e =>
    have hother {d : Char} (hd : d.isAlpha = false) : (x == d) = false := by
      rw [beq_eq_false_iff_ne]
      rintro rfl
      rw [he x List.mem_cons_self] at hd
      cases hd
    have hslash : (x == '/') = false := hother (by decide)
    have hstar : (x == '*') = false := hother (by decide)
    have hmark : (x == '!') = false := hother (by decide)
    have hhead (s : List Char) {p : Char → Bool} (hp : p x = false) :
        (s ++ x :: e).head?.any p = s.head?.any p := by
      cases s with
      | nil => exact hp
      | cons c s => rfl
    match s with
    | [] =>
      cases e with
      | nil => simp [startsDoc]
      | cons y e => exact startsDoc_other e fun h => absurd h (by simpa using hslash)
    | [a] =>
      have hx : x ≠ '/' ∧ x ≠ '*' := ⟨by simpa using hslash, by simpa using hstar⟩
      exact (startsDoc_other e fun _ => hx).trans (by simp [startsDoc])
    | a :: b :: s =>
      by_cases h : a = '/' → b ≠ '/' ∧ b ≠ '*'
      · rw [startsDoc_other s h]
        exact startsDoc_other (s ++ x :: e) h
      · obtain ⟨rfl, rfl | rfl⟩ : a = '/' ∧ (b = '/' ∨ b = '*') := by
          by_cases hb : b = '/' <;> simp_all
        · cases s with
          | nil => exact (startsDoc_line x e).trans (by rw [hmark, hslash]; rfl)
          | cons c s =>
            rw [startsDoc_line, ← hhead s hslash]
            exact startsDoc_line c (s ++ x :: e)
        · cases s with
          | nil => exact (startsDoc_block x e).trans (by rw [hmark, hstar]; rfl)
          | cons c s =>
            have hmarks : (x == '*' || x == '/') = false := by rw [hstar, hslash, Bool.or_false]
            rw [startsDoc_block, ← hhead s (p := fun d => d == '*' || d == '/') hmarks]
            exact startsDoc_block c (s ++ x :: e)

/-- The text after a blank or a plain comment at the front. -/
def afterGap (cs : List Char) : Option (List Char) :=
  if startsDoc cs then none
  else
    match cs with
    | '/' :: '/' :: rest => some (splitLine rest).2
    | '/' :: '*' :: rest => closeComment 1 rest
    | c :: rest => if isGap c then some rest else none
    | [] => none

theorem afterGap_line {rest : List Char} (h : startsDoc ('/' :: '/' :: rest) = false) :
    afterGap ('/' :: '/' :: rest) = some (splitLine rest).2 := by
  unfold afterGap
  rw [if_neg (by simp [h])]
  rfl

theorem afterGap_block {rest : List Char} (h : startsDoc ('/' :: '*' :: rest) = false) :
    afterGap ('/' :: '*' :: rest) = closeComment 1 rest := by
  unfold afterGap
  rw [if_neg (by simp [h])]
  rfl

theorem afterGap_char {c : Char} {rest : List Char} (h : startsDoc (c :: rest) = false)
    (hline : ∀ later, c = '/' → rest ≠ '/' :: later)
    (hblock : ∀ later, c = '/' → rest ≠ '*' :: later) :
    afterGap (c :: rest) = if isGap c then some rest else none := by
  unfold afterGap
  rw [if_neg (by simp [h])]
  split
  · next heq =>
    obtain ⟨rfl, rfl⟩ := List.cons.inj heq
    exact absurd rfl (hline _ rfl)
  · next heq =>
    obtain ⟨rfl, rfl⟩ := List.cons.inj heq
    exact absurd rfl (hblock _ rfl)
  · next heq =>
    obtain ⟨rfl, rfl⟩ := List.cons.inj heq
    rfl
  · next heq => cases heq

theorem skipGaps_succ (fuel : Nat) (cs : List Char) :
    skipGaps (fuel + 1) cs = match afterGap cs with
      | some rest => skipGaps fuel rest
      | none => cs := by
  change (if startsDoc cs = true then _ else _) = _
  cases hdoc : startsDoc cs with
  | true =>
    unfold afterGap
    rw [if_pos rfl, if_pos hdoc]
  | false =>
    rw [if_neg Bool.false_ne_true]
    split
    · rw [afterGap_line hdoc]
    · next rest =>
      cases hclose : closeComment 1 rest with
      | none => rw [afterGap_block hdoc, hclose]
      | some later => rw [afterGap_block hdoc, hclose]
    · next c rest hline hblock =>
      rw [afterGap_char hdoc hline hblock]
      cases isGap c <;> rfl
    · rfl

theorem afterGap_of_startsDoc {cs : List Char} (h : startsDoc cs = true) : afterGap cs = none := by
  unfold afterGap
  rw [if_pos h]

/-- A reader of what stands before an ending goes the same way up to any ending: it finds nothing,
or leaves less of the text before the ending, or leaves nothing. -/
theorem afterGap_append {c : Char} {cs : List Char} :
    (∀ e, IsEnding e → afterGap (c :: cs ++ e) = none) ∨
    (∃ rest, rest.length ≤ cs.length ∧
      ∀ e, IsEnding e → afterGap (c :: cs ++ e) = some (rest ++ e)) ∨
    ∀ e, IsEnding e → afterGap (c :: cs ++ e) = some [] := by
  cases hdoc : startsDoc (c :: cs) with
  | true =>
    refine .inl fun e he => afterGap_of_startsDoc ?_
    rw [startsDoc_append he.letters, hdoc]
  | false =>
    have hdoc (e : List Char) (he : IsEnding e) : startsDoc (c :: cs ++ e) = false := by
      rw [startsDoc_append he.letters, hdoc]
    by_cases hline : ∃ rest, c = '/' ∧ cs = '/' :: rest
    · obtain ⟨rest, rfl, rfl⟩ := hline
      rcases snd_splitLine_append rest with ⟨later, hlength, h⟩ | h
      · refine .inr (.inl ⟨later, Nat.le_succ_of_le hlength, fun e he => ?_⟩)
        exact (afterGap_line (hdoc e he)).trans (congrArg some (h e he.letters))
      · exact .inr (.inr fun e he =>
          (afterGap_line (hdoc e he)).trans (congrArg some (h e he.letters)))
    by_cases hblock : ∃ rest, c = '/' ∧ cs = '*' :: rest
    · obtain ⟨rest, rfl, rfl⟩ := hblock
      have h (e : List Char) (he : IsEnding e) :
          afterGap ('/' :: '*' :: rest ++ e) = (closeComment 1 rest).map (· ++ e) :=
        (afterGap_block (hdoc e he)).trans (closeComment_append he.letters 1 rest)
      cases hclose : closeComment 1 rest with
      | none => exact .inl fun e he => by rw [h e he, hclose, Option.map_none]
      | some later =>
        refine .inr (.inl ⟨later, ?_, fun e he => by rw [h e he, hclose, Option.map_some]⟩)
        exact Nat.le_succ_of_le (length_of_closeComment hclose)
    · -- no comment begins here, whatever stands after the text
      have h (e : List Char) (he : IsEnding e) : afterGap (c :: cs ++ e) =
          if isGap c then some (cs ++ e) else none := by
        refine afterGap_char (hdoc e he) (fun later hc heq => ?_) fun later hc heq => ?_
        · obtain ⟨rest, hrest, _⟩ := eq_cons_of_append_eq_cons he.letters (by decide) heq
          exact hline ⟨rest, hc, hrest⟩
        · obtain ⟨rest, hrest, _⟩ := eq_cons_of_append_eq_cons he.letters (by decide) heq
          exact hblock ⟨rest, hc, hrest⟩
      cases hgap : isGap c with
      | true =>
        refine .inr (.inl ⟨cs, Nat.le_refl _, fun e he => ?_⟩)
        rw [h e he, hgap, if_pos rfl]
      | false =>
        refine .inl fun e he => ?_
        rw [h e he, hgap, if_neg Bool.false_ne_true]

theorem skipGaps_of_afterGap {fuel : Nat} {cs : List Char} (h : afterGap cs = none) :
    skipGaps fuel cs = cs := by
  cases fuel with
  | zero => rfl
  | succ fuel => rw [skipGaps_succ, h]

@[simp] theorem skipGaps_nil (fuel : Nat) : skipGaps fuel [] = [] := by
  cases fuel <;> rfl

/-- Gaps end before an ending or with the text, whatever the ending. The induction is on the length
of the text before, which gaps leave less of. -/
theorem skipGaps_append (s : List Char) :
    (∃ rest, ∀ e, IsEnding e → ∀ fuel, (s ++ e).length ≤ fuel →
      skipGaps fuel (s ++ e) = rest ++ e) ∨
    ∀ e, IsEnding e → ∀ fuel, (s ++ e).length ≤ fuel → skipGaps fuel (s ++ e) = [] := by
  induction hlength : s.length using Nat.strongRecOn generalizing s with
  | ind length ih =>
    cases s with
    | nil =>
      refine .inl ⟨[], fun e he fuel _ => ?_⟩
      obtain ⟨c, cs, rfl, hc⟩ := he.exists_cons
      exact skipGaps_of_isIdentifierStart (isIdentifierStart_of_isAlpha hc) fuel cs
    | cons c cs =>
      have hstep {rest : List Char}
          (h : ∀ e, IsEnding e → afterGap (c :: cs ++ e) = some (rest ++ e))
          (hrest : rest.length ≤ cs.length) {e : List Char} (he : IsEnding e) {fuel : Nat}
          (hfuel : (c :: cs ++ e).length ≤ fuel) :
          ∃ less, (rest ++ e).length ≤ less ∧
            skipGaps fuel (c :: cs ++ e) = skipGaps less (rest ++ e) := by
        obtain ⟨less, rfl⟩ : ∃ less, fuel = less + 1 :=
          Nat.exists_eq_succ_of_ne_zero (by rintro rfl; simp at hfuel)
        refine ⟨less, ?_, by rw [skipGaps_succ, h e he]⟩
        simp at hfuel ⊢
        omega
      rcases @afterGap_append c cs with h | ⟨rest, hrest, h⟩ | h
      · exact .inl ⟨c :: cs, fun e he fuel _ => skipGaps_of_afterGap (h e he)⟩
      · rcases ih rest.length (by simp at hlength; omega) rest rfl with ⟨later, ih⟩ | ih
        · refine .inl ⟨later, fun e he fuel hfuel => ?_⟩
          obtain ⟨less, hless, heq⟩ := hstep h hrest he hfuel
          rw [heq, ih e he less hless]
        · refine .inr fun e he fuel hfuel => ?_
          obtain ⟨less, hless, heq⟩ := hstep h hrest he hfuel
          rw [heq, ih e he less hless]
      · refine .inr fun e he fuel hfuel => ?_
        obtain ⟨less, rfl⟩ : ∃ less, fuel = less + 1 :=
          Nat.exists_eq_succ_of_ne_zero (by rintro rfl; simp at hfuel)
        rw [skipGaps_succ, h e he]
        exact skipGaps_nil less

/-! ## Identifiers -/

/-- What ends with no letter stands before the letters at the end. -/
theorem prefix_append_iff {e s before : List Char} {d : Char} (he : ∀ c ∈ e, c.isAlpha = true)
    (hd : d.isAlpha = false) : before ++ [d] <+: s ++ e ↔ before ++ [d] <+: s := by
  refine ⟨fun h => ?_, fun h => h.trans (List.prefix_append s e)⟩
  rcases List.prefix_or_prefix_of_prefix h (List.prefix_append s e) with hshort | ⟨q, hq⟩
  · exact hshort
  · cases q using List.reverseRecOn with
    | nil =>
      rw [List.append_nil] at hq
      exact hq ▸ List.prefix_rfl
    | append_singleton q x =>
      rw [← List.append_assoc] at hq
      obtain ⟨rfl, hx⟩ := List.append_inj' hq rfl
      obtain rfl : x = d := by simpa using hx
      rw [List.append_assoc, List.prefix_append_right_inj] at h
      have hmem : x ∈ e := h.subset (by simp)
      rw [he x hmem] at hd
      cases hd

/-- Whether text has one of the beginnings of literals is seen before the letters at its end. -/
theorem startsLiteral_append {e : List Char} (he : ∀ c ∈ e, c.isAlpha = true) (s : List Char) :
    startsLiteral (s ++ e) = startsLiteral s := by
  have hstarts : ∀ start ∈
      ["r\"", "r#\"", "r##", "b\"", "b'", "br\"", "br#", "c\"", "cr\"", "cr#"],
      ∃ before d, start.toList = before ++ [d] ∧ d.isAlpha = false := by
    have hends : ∀ start ∈
        ["r\"", "r#\"", "r##", "b\"", "b'", "br\"", "br#", "c\"", "cr\"", "cr#"],
        start.toList ≠ [] ∧ start.toList.getLast?.any (·.isAlpha) = false := by
      decide
    intro start hstart
    obtain ⟨hne, hend⟩ := hends start hstart
    refine ⟨start.toList.dropLast, start.toList.getLast hne,
      (List.dropLast_concat_getLast hne).symm, ?_⟩
    rwa [List.getLast?_eq_some_getLast hne] at hend
  unfold startsLiteral
  rw [Bool.eq_iff_iff, List.any_eq_true, List.any_eq_true]
  refine exists_congr fun start => and_congr_right fun hstart => ?_
  obtain ⟨before, d, htext, hd⟩ := hstarts start hstart
  rw [List.isPrefixOf_iff_prefix, List.isPrefixOf_iff_prefix, htext]
  exact prefix_append_iff he hd

/-- No reserved word ends like an ending. -/
theorem notMem_of_isEnding {e : List Char} (he : IsEnding e) (s : List Char) :
    String.ofList (s ++ e) ∉ reservedWords ++ neverRaw := by
  have hwords : ∀ word ∈ reservedWords ++ neverRaw, ¬ "Impl".toList <:+ word.toList := by
    decide
  intro hmem
  have hsuffix : "Impl".toList <:+ s ++ e := he.last.trans (List.suffix_append s e)
  rw [← String.toList_ofList (l := s ++ e)] at hsuffix
  exact hwords _ hmem hsuffix

/-- An identifier ends before an ending or with it, whatever the ending. -/
theorem plainIdentifier_append (s : List Char) :
    (∀ e, IsEnding e → plainIdentifier (s ++ e) = none) ∨
    (∀ e, IsEnding e → plainIdentifier (s ++ e) = some (s ++ e, [])) ∨
    ∃ name rest, ∀ e, IsEnding e → plainIdentifier (s ++ e) = some (name, rest ++ e) := by
  have hletters {e : List Char} (he : IsEnding e) : ∀ c ∈ e, isIdentifierContinue c = true :=
    fun c hc => isIdentifierContinue_of_isAlpha (he.letters c hc)
  cases s with
  | nil =>
    refine .inr (.inl fun e he => ?_)
    have hall := hletters he
    obtain ⟨c, cs, rfl, hc⟩ := he.exists_cons
    obtain ⟨_, hcs⟩ := List.forall_mem_cons.mp hall
    simp [plainIdentifier, isIdentifierStart_of_isAlpha hc, List.takeWhile_eq_self_iff.mpr hcs,
      List.dropWhile_eq_nil_iff.mpr hcs]
  | cons c cs =>
    cases hc : isIdentifierStart c with
    | false => exact .inl fun e _ => by simp [plainIdentifier, hc]
    | true =>
      by_cases hcs : ∀ d ∈ cs, isIdentifierContinue d = true
      · refine .inr (.inl fun e he => ?_)
        have hall : ∀ d ∈ cs ++ e, isIdentifierContinue d = true := by
          simpa [or_imp, forall_and] using ⟨hcs, hletters he⟩
        simp [plainIdentifier, hc, List.takeWhile_eq_self_iff.mpr hall,
          List.dropWhile_eq_nil_iff.mpr hall]
      · -- the first character that is not one of a name stands before the ending
        have hword : (cs.takeWhile isIdentifierContinue).length ≠ cs.length := by
          intro hlength
          refine hcs (List.takeWhile_eq_self_iff.mp ?_)
          exact (List.takeWhile_prefix isIdentifierContinue).eq_of_length hlength
        have hrest : (cs.dropWhile isIdentifierContinue).isEmpty = false := by
          simpa [List.isEmpty_eq_false_iff, List.dropWhile_eq_nil_iff] using hcs
        refine .inr (.inr ⟨c :: cs.takeWhile isIdentifierContinue,
          cs.dropWhile isIdentifierContinue, fun e _ => ?_⟩)
        simp [plainIdentifier, hc, List.takeWhile_append, List.dropWhile_append, hword, hrest]

/-- A raw identifier is one of the words after its mark. -/
theorem identifier_raw (s : List Char) : identifier ('r' :: '#' :: s) =
    (plainIdentifier s).bind fun found =>
      if neverRaw.contains (String.ofList found.1) then none
      else some ('r' :: '#' :: found.1, found.2) := rfl

theorem identifier_plain {s : List Char} (h : ∀ rest, s ≠ 'r' :: '#' :: rest) :
    identifier s = plainIdentifier s := by
  unfold identifier
  split
  · exact absurd rfl (h _)
  · rfl

theorem identifier_append (s : List Char) :
    (∀ e, IsEnding e → identifier (s ++ e) = none) ∨
    (∀ e, IsEnding e → identifier (s ++ e) = some (s ++ e, [])) ∨
    ∃ name rest, ∀ e, IsEnding e → identifier (s ++ e) = some (name, rest ++ e) := by
  by_cases hraw : ∃ word, s = 'r' :: '#' :: word
  · obtain ⟨word, rfl⟩ := hraw
    have hidentifier (e : List Char) : identifier ('r' :: '#' :: word ++ e) = _ :=
      identifier_raw (word ++ e)
    rcases plainIdentifier_append word with h | h | ⟨name, rest, h⟩
    · exact .inl fun e he => by rw [hidentifier, h e he, Option.bind_none]
    · refine .inr (.inl fun e he => ?_)
      have hnever : neverRaw.contains (String.ofList (word ++ e)) = false := by
        simpa using fun h => notMem_of_isEnding he word (List.mem_append_right _ h)
      rw [hidentifier, h e he, Option.bind_some, hnever]
      rfl
    · cases hnever : neverRaw.contains (String.ofList name) with
      | true => exact .inl fun e he => by rw [hidentifier, h e he, Option.bind_some, hnever]; rfl
      | false =>
        refine .inr (.inr ⟨'r' :: '#' :: name, rest, fun e he => ?_⟩)
        rw [hidentifier, h e he, Option.bind_some, hnever]
        rfl
  · have hplain {e : List Char} (he : IsEnding e) :
        identifier (s ++ e) = plainIdentifier (s ++ e) := by
      refine identifier_plain fun rest h => hraw ?_
      have hmark : ['r'] ++ ['#'] <+: s ++ e := ⟨rest, h.symm⟩
      obtain ⟨word, hword⟩ := (prefix_append_iff he.letters (by decide)).mp hmark
      exact ⟨word, hword.symm⟩
    rcases plainIdentifier_append s with h | h | ⟨name, rest, h⟩
    · exact .inl fun e he => (hplain he).trans (h e he)
    · exact .inr (.inl fun e he => (hplain he).trans (h e he))
    · exact .inr (.inr ⟨name, rest, fun e he => (hplain he).trans (h e he)⟩)

theorem skipOrderMark_append {e : List Char} (he : ∀ c ∈ e, c.isAlpha = true) (s : List Char) :
    skipOrderMark (s ++ e) = skipOrderMark s ++ e := by
  by_cases hmark : ∃ rest, s = '\ufeff' :: rest
  · obtain ⟨rest, rfl⟩ := hmark
    rfl
  · have hplain {s : List Char} (h : ¬ ∃ rest, s = '\ufeff' :: rest) : skipOrderMark s = s := by
      unfold skipOrderMark
      split
      · exact absurd ⟨_, rfl⟩ h
      · rfl
    rw [hplain hmark, hplain]
    rintro ⟨rest, h⟩
    exact hmark ((eq_cons_of_append_eq_cons he (by decide) h).imp fun _ => And.left)

/-- With every ending a text is a name, or with none. -/
theorem parseName_append (s : String) :
    (∀ e, IsEnding e → ∃ name, parseName (s ++ String.ofList e) = some name) ∨
    ∀ e, IsEnding e → parseName (s ++ String.ofList e) = none := by
  have hahead {e : List Char} (he : IsEnding e) : ahead (s ++ String.ofList e) =
      skipGaps (skipOrderMark s.toList ++ e).length (skipOrderMark s.toList ++ e) := by
    rw [ahead, String.toList_append, String.toList_ofList, skipOrderMark_append he.letters]
  rcases skipGaps_append (skipOrderMark s.toList) with ⟨front, hfront⟩ | hfront
  · replace hahead {e : List Char} (he : IsEnding e) : ahead (s ++ String.ofList e) = front ++ e :=
      (hahead he).trans (hfront e he _ (Nat.le_refl _))
    cases hliteral : startsLiteral front with
    | true =>
      refine .inr fun e he => Option.eq_none_iff_forall_ne_some.mpr fun name h => ?_
      have hplain := (parseName_eq_some_iff.mp h).1
      rw [hahead he, startsLiteral_append he.letters, hliteral] at hplain
      cases hplain
    | false =>
      replace hliteral {e : List Char} (he : IsEnding e) :
          startsLiteral (ahead (s ++ String.ofList e)) = false := by
        rw [hahead he, startsLiteral_append he.letters, hliteral]
      -- what is read as a name is what the identifier at the front of the text says
      have hread {e chars rest : List Char} (he : IsEnding e)
          (h : identifier (front ++ e) = some (chars, rest)) (name : String) :
          parseName (s ++ String.ofList e) = some name ↔
            skipGaps rest.length rest = [] ∧ name = String.ofList chars ∧ isName name = true := by
        have hplain := hliteral he
        rw [hahead he] at hplain
        simp [parseName_eq_some_iff, hplain, hahead he, h]
      rcases identifier_append front with h | h | ⟨chars, rest, h⟩
      · refine .inr fun e he => Option.eq_none_iff_forall_ne_some.mpr fun name hname => ?_
        obtain ⟨_, chars, rest, hchars, _⟩ := parseName_eq_some_iff.mp hname
        rw [hahead he, h e he] at hchars
        cases hchars
      · refine .inl fun e he => ⟨_, (hread he (h e he) _).mpr ⟨rfl, rfl, ?_⟩⟩
        simpa [isName] using fun h => notMem_of_isEnding he front (List.mem_append_left _ h)
      · rcases skipGaps_append rest with ⟨later, hlater⟩ | hlater
        · refine .inr fun e he => Option.eq_none_iff_forall_ne_some.mpr fun name hname => ?_
          obtain ⟨hgaps, _⟩ := (hread he (h e he) name).mp hname
          rw [hlater e he _ (Nat.le_refl _)] at hgaps
          obtain ⟨c, cs, rfl, _⟩ := he.exists_cons
          simp at hgaps
        · have hgaps {e : List Char} (he : IsEnding e) := hlater e he _ (Nat.le_refl _)
          cases hname : isName (String.ofList chars) with
          | true => exact .inl fun e he => ⟨_, (hread he (h e he) _).mpr ⟨hgaps he, rfl, hname⟩⟩
          | false =>
            refine .inr fun e he => Option.eq_none_iff_forall_ne_some.mpr fun name h' => ?_
            obtain ⟨_, rfl, hname'⟩ := (hread he (h e he) name).mp h'
            rw [hname] at hname'
            cases hname'
  · refine .inr fun e he => Option.eq_none_iff_forall_ne_some.mpr fun name h => ?_
    obtain ⟨_, chars, rest, hchars, _⟩ := parseName_eq_some_iff.mp h
    rw [hahead he, hfront e he _ (Nat.le_refl _)] at hchars
    cases hchars

end DaoGen.Code
