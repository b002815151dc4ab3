import DaoGen.Proofs.Code.Ending
import DaoGen.Text.Cluster
import DaoGen.Text.LetterCase
import Mathlib.Data.List.Chain

/-!
# Letter case of identifiers

Lowercasing takes characters of identifiers to characters of identifiers, and first characters to
first characters; uppercasing keeps characters of identifiers as well. Beyond ASCII this is a matter
of tables: the images of each run of letters are compared with the spans of the identifier
characters as a whole, and part by part only where the run leaves them. Marks are kept apart from
the runs in one pass over both.

## Main results

* `IsLowerForm.isIdentifierContinue`, `IsLowerForm.exists_cons`: the lowercase forms of a character
  of an identifier.
* `IsLowerForm.eq_of_attachesBackward`: marks have no case.
* `isIdentifierContinue_of_mem_upperList`: the uppercase form of characters of identifiers.
-/
namespace DaoGen.Text

theorem toNat_ofNat_of_isValidChar {n : Nat} (h : n.isValidChar) : (Char.ofNat n).toNat = n := by
  rw [Char.ofNat, dif_pos h]
  rfl

/-! ## Spans -/

namespace CharSet

/-- Whether the code points from one to another all lie on one span. -/
def covers (s : CharSet) (lo hi : Nat) : Bool :=
  s.spans.any fun span => span.1.ble lo && hi.ble span.2

/-- Whether all code points are those of characters beyond ASCII. -/
def isBeyondAscii (s : CharSet) : Bool :=
  s.spans.all fun span =>
    Nat.ble 0x80 span.1 && (span.2.blt 0xd800 || Nat.blt 0xdfff span.1 && span.2.blt 0x110000)

/-- A set with the small letters of ASCII. -/
def withSmall (s : CharSet) : CharSet := ⟨(0x61, 0x7a) :: s.spans⟩

/-- A set with the capital letters of ASCII. -/
def withCapitals (s : CharSet) : CharSet := ⟨(0x41, 0x5a) :: s.spans⟩

variable {s : CharSet} {lo hi n : Nat}

theorem covers_iff : s.covers n n = true ↔ ∃ span ∈ s.spans, span.1 ≤ n ∧ n ≤ span.2 := by
  simp [covers]

theorem contains_eq_covers (c : Char) : s.contains c = s.covers c.toNat c.toNat := by
  rw [Bool.eq_iff_iff, covers_iff]
  simp [contains]

theorem covers_of_le (h : s.covers lo hi = true) (hlo : lo ≤ n) (hhi : n ≤ hi) :
    s.covers n n = true := by
  rw [covers_iff]
  simp only [covers, List.any_eq_true, Bool.and_eq_true, Nat.ble_eq] at h
  obtain ⟨span, hspan, hfirst, hlast⟩ := h
  exact ⟨span, hspan, by omega, by omega⟩

/-- A code point of a set beyond ASCII is that of a character. -/
theorem toNat_ofNat_of_covers (hs : s.isBeyondAscii = true) (h : s.covers n n = true) :
    (Char.ofNat n).toNat = n ∧ 0x80 ≤ n := by
  obtain ⟨span, hspan, hfirst, hlast⟩ := covers_iff.mp h
  have hbounds := List.all_eq_true.mp hs span hspan
  simp only [Bool.and_eq_true, Bool.or_eq_true, Nat.ble_eq, Nat.blt_eq] at hbounds
  have hvalid : n.isValidChar := by
    unfold Nat.isValidChar
    omega
  exact ⟨toNat_ofNat_of_isValidChar hvalid, by omega⟩

/-- A code point of a set beyond ASCII with some letters is that of a letter of ASCII or of a
character of the set. -/
theorem isAlpha_or_contains {first : Nat} (hs : s.isBeyondAscii = true)
    (hfirst : ∀ k ∈ List.range' first 26, (Char.ofNat k).isAlpha = true)
    (h : CharSet.covers ⟨(first, first + 25) :: s.spans⟩ n n = true) :
    (Char.ofNat n).isAlpha = true ∨
      0x80 ≤ (Char.ofNat n).toNat ∧ s.contains (Char.ofNat n) = true := by
  obtain ⟨span, hspan, hbounds⟩ := covers_iff.mp h
  rcases List.mem_cons.mp hspan with rfl | hspan
  · exact .inl (hfirst n (List.mem_range'_1.mpr ⟨hbounds.1, by omega⟩))
  · have hn : s.covers n n = true := covers_iff.mpr ⟨span, hspan, hbounds⟩
    obtain ⟨hcode, hlarge⟩ := toNat_ofNat_of_covers hs hn
    exact .inr ⟨by omega, by rwa [contains_eq_covers, hcode]⟩

/-- A character that a set contains is in it with some letters as well. -/
theorem covers_cons_of_contains {c : Char} (h : s.contains c = true) (letters : Nat × Nat) :
    CharSet.covers ⟨letters :: s.spans⟩ c.toNat c.toNat = true := by
  rw [contains_eq_covers, covers_iff] at h
  obtain ⟨span, hspan, hbounds⟩ := h
  exact covers_iff.mpr ⟨span, List.mem_cons_of_mem _ hspan, hbounds⟩

/-- Whether a span ends before another begins. -/
def endsBefore (span other : Nat × Nat) : Bool := span.2.blt other.1

/-- Whether the spans of a list lie beside those of another. Of two ordered lists each is passed
once: what ends before a span also ends before the later ones. -/
def areApart : List (Nat × Nat) → List (Nat × Nat) → Bool
  | [], _ => true
  | span :: spans, others =>
    let rest := others.dropWhile (endsBefore · span)
    rest.head?.all (endsBefore span) && areApart spans rest

/-- Whether two sets with ordered spans have no code point in common. -/
def isApart (s t : CharSet) : Bool :=
  decide ((s.spans.map Prod.fst).IsChain (· ≤ ·)) &&
    decide ((t.spans.map Prod.fst).IsChain (· ≤ ·)) && areApart s.spans t.spans

/-- What ends before the first of ordered spans ends before all of them. -/
theorem lt_of_head?_all {span : Nat × Nat} {spans : List (Nat × Nat)}
    (hsorted : spans.Pairwise fun a b => a.1 ≤ b.1)
    (hhead : spans.head?.all (endsBefore span) = true) : ∀ other ∈ spans, span.2 < other.1 := by
  cases spans with
  | nil => simp
  | cons first later =>
    have hfirst : span.2 < first.1 := Nat.blt_eq.mp hhead
    rw [List.forall_mem_cons]
    exact ⟨hfirst, fun other hother =>
      Nat.lt_of_lt_of_le hfirst (List.rel_of_pairwise_cons hsorted hother)⟩

theorem apart_of_areApart {spans others : List (Nat × Nat)}
    (hspans : spans.Pairwise fun a b => a.1 ≤ b.1) (hothers : others.Pairwise fun a b => a.1 ≤ b.1)
    (h : areApart spans others = true) :
    ∀ span ∈ spans, ∀ other ∈ others, other.2 < span.1 ∨ span.2 < other.1 := by
  induction spans generalizing others with
  | nil => simp
  | cons first later ih =>
    obtain ⟨hhead, hrest⟩ := Bool.and_eq_true_iff.mp h
    obtain ⟨hfirst, hlater⟩ := List.pairwise_cons.mp hspans
    have hsorted := hothers.sublist (List.dropWhile_sublist (endsBefore · first))
    have hbefore {other : Nat × Nat} (h : other ∈ others.takeWhile (endsBefore · first)) :
        other.2 < first.1 := Nat.blt_eq.mp (List.mem_takeWhile_imp (p := (endsBefore · first)) h)
    rw [← List.takeWhile_append_dropWhile (p := (endsBefore · first)) (l := others)]
    simp only [List.mem_cons, List.mem_append]
    rintro span (rfl | hspan) other (hdropped | hleft)
    · exact .inl (hbefore hdropped)
    · exact .inr (lt_of_head?_all hsorted hhead other hleft)
    -- a later span begins no earlier, so it also has what is dropped before it
    · exact .inl (Nat.lt_of_lt_of_le (hbefore hdropped) (hfirst span hspan))
    · exact ih hlater hsorted hrest span hspan other hleft

/-- Whether each span of a list lies on one of another. Of two ordered lists each is passed once. -/
def areWithin : List (Nat × Nat) → List (Nat × Nat) → Bool
  | [], _ => true
  | span :: spans, others =>
    let rest := others.dropWhile (endsBefore · span)
    rest.head?.any (fun other => other.1.ble span.1 && span.2.ble other.2) && areWithin spans rest

theorem covers_of_areWithin {t : CharSet} (h : areWithin s.spans t.spans = true)
    (hn : s.covers n n = true) : t.covers n n = true := by
  have hall {spans others : List (Nat × Nat)} (h : areWithin spans others = true) :
      ∀ span ∈ spans, ∃ other ∈ others, other.1 ≤ span.1 ∧ span.2 ≤ other.2 := by
    induction spans generalizing others with
    | nil => simp
    | cons first later ih =>
      obtain ⟨hhead, hrest⟩ := Bool.and_eq_true_iff.mp h
      have hsuffix := (List.dropWhile_suffix (l := others) (endsBefore · first)).subset
      rw [List.forall_mem_cons]
      refine ⟨?_, fun span hspan => ?_⟩
      · obtain ⟨other, hother, hin⟩ := (Option.any_eq_true _ _).mp hhead
        rw [Bool.and_eq_true, Nat.ble_eq, Nat.ble_eq] at hin
        exact ⟨other, hsuffix (List.mem_of_head? hother), hin⟩
      · obtain ⟨other, hother, hin⟩ := ih hrest span hspan
        exact ⟨other, hsuffix hother, hin⟩
  obtain ⟨span, hspan, hfirst, hlast⟩ := covers_iff.mp hn
  obtain ⟨other, hother, hlo, hhi⟩ := hall h span hspan
  exact covers_iff.mpr ⟨other, hother, Nat.le_trans hlo hfirst, Nat.le_trans hlast hhi⟩

theorem not_covers_of_isApart {t : CharSet} (h : s.isApart t = true) (ht : t.covers n n = true) :
    s.covers n n = false := by
  simp only [isApart, Bool.and_eq_true, decide_eq_true_eq, List.isChain_iff_pairwise,
    List.pairwise_map] at h
  obtain ⟨other, hother, _, _⟩ := covers_iff.mp ht
  rw [Bool.eq_false_iff, Ne, covers_iff]
  rintro ⟨span, hspan, _, _⟩
  have hapart := apart_of_areApart h.1.1 h.1.2 h.2 span hspan other hother
  omega

end CharSet

/-! ## Runs -/

namespace CaseRun

/-- What a run takes a code point to. -/
def image (r : CaseRun) (n : Nat) : Nat := (n + r.shift).toNat

/-- Whether the images of a run lie on one span, which makes it one comparison for most runs, or
else whether for each span the images of the part of the run on it do. -/
def keeps (s : CharSet) (r : CaseRun) : Bool :=
  s.covers (r.image r.first) (r.image r.last) || s.spans.all fun span =>
    span.2.blt r.first || r.last.blt span.1 ||
      s.covers (r.image (max span.1 r.first)) (r.image (min span.2 r.last))

variable {r : CaseRun} {n m : Nat}

theorem map?_eq_some (h : r.map? n = some m) : r.first ≤ n ∧ n ≤ r.last ∧ m = r.image n := by
  rw [map?] at h
  split at h
  · next hn =>
    cases h
    exact ⟨hn.1, hn.2.1, rfl⟩
  · cases h

theorem image_mono (h : m ≤ n) : r.image m ≤ r.image n := by
  rw [image, image]
  omega

/-- A run that keeps a set takes its code points into it. -/
theorem covers_of_map? {s : CharSet} (hkeeps : r.keeps s = true) (h : r.map? n = some m)
    (hn : s.covers n n = true) : s.covers m m = true := by
  obtain ⟨hfirst, hlast, rfl⟩ := map?_eq_some h
  rw [keeps, Bool.or_eq_true] at hkeeps
  rcases hkeeps with hwhole | hparts
  · exact CharSet.covers_of_le hwhole (image_mono hfirst) (image_mono hlast)
  · obtain ⟨span, hspan, hlo, hhi⟩ := CharSet.covers_iff.mp hn
    have hpart := List.all_eq_true.mp hparts span hspan
    simp only [Bool.or_eq_true, Nat.blt_eq] at hpart
    rcases hpart with hbeside | hpart
    · omega
    · exact CharSet.covers_of_le hpart (image_mono (by omega)) (image_mono (by omega))

/-- The code points that lie on a run. -/
def points (r : CaseRun) : List Nat := List.range' r.first ((r.last - r.first) / r.step + 1) r.step

theorem mem_points_of_map? (h : r.map? n = some m) : n ∈ r.points := by
  rw [map?] at h
  split at h
  · next hn =>
    obtain ⟨hfirst, hlast, hstep⟩ := hn
    have hdiv : r.step * ((n - r.first) / r.step) = n - r.first :=
      Nat.mul_div_cancel' (Nat.dvd_of_mod_eq_zero hstep)
    refine List.mem_range'.mpr ⟨(n - r.first) / r.step, ?_, by omega⟩
    exact Nat.lt_succ_of_le (Nat.div_le_div_right (by omega))
  · cases h

end CaseRun

/-- The code points of the letters that lowercasing looks up. -/
def loweredLetters : CharSet := ⟨lowerRuns.map fun r => (r.first, r.last)⟩

/-! ## Tables -/

/-- What lowercasing needs of the tables. -/
structure TablesFit : Prop where
  /-- Characters of identifiers beyond ASCII are taken to others or to small letters. -/
  keeps : [identifierStarts, identifierContinuations].all (fun s =>
    s.isBeyondAscii && lowerRuns.all (CaseRun.keeps s.withSmall)) = true
  /-- Marks have no lowercase form, attach to nothing that follows them and are no pictographs. -/
  marks : [loweredLetters, clusterPrepends, pictographs].all (fun s =>
    s.isApart clusterExtenders && s.isApart clusterSpacingMarks) = true
  /-- No run gives the lowercase forms of two letters, `İ` and `Σ`. -/
  irregular : isIdentifierContinue '\u0307' = true ∧
    isIdentifierContinue 'ς' = true ∧ isIdentifierContinue 'σ' = true ∧
    isIdentifierStart 'ς' = true ∧ isIdentifierStart 'σ' = true ∧
    attachesBackward 'İ' = false ∧ attachesBackward 'Σ' = false
  ascii : ∀ n < 0x80, let c := Char.ofNat n
    (isIdentifierContinue c = true → isIdentifierContinue c.toLower = true) ∧
      (isIdentifierStart c = true → isIdentifierStart c.toLower = true)

-- one theorem, as each evaluation in the kernel waits for those of all theorems before it
theorem tablesFit : TablesFit where
  keeps := by decide +kernel
  marks := by decide +kernel
  irregular := by decide +kernel
  ascii := by decide +kernel

theorem not_covers_of_attachesBackward {c : Char} (h : attachesBackward c = true) {s : CharSet}
    (hs : s ∈ [loweredLetters, clusterPrepends, pictographs]) :
    s.covers c.toNat c.toNat = false := by
  have hapart := List.all_eq_true.mp tablesFit.marks s hs
  simp only [attachesBackward, Bool.and_eq_true, Bool.or_eq_true,
    CharSet.contains_eq_covers] at h hapart
  exact h.2.elim (CharSet.not_covers_of_isApart hapart.1) (CharSet.not_covers_of_isApart hapart.2)

/-! ## Characters -/

/-- The lowercase forms that a character has in text. A capital sigma has two. -/
def IsLowerForm (c : Char) (image : List Char) : Prop :=
  image = lowerChar c ∨ c = 'Σ' ∧ (image = ['ς'] ∨ image = ['σ'])

variable {c : Char} {image : List Char}

/-- The lowercase form beyond ASCII is looked up in the runs, but for one character that grows. -/
theorem lowerChar_cases (h : 0x80 ≤ c.toNat) :
    (c.toNat = 0x130 ∧ lowerChar c = ['i', '\u0307']) ∨
      (∃ r ∈ lowerRuns, ∃ n, r.map? c.toNat = some n ∧ lowerChar c = [Char.ofNat n]) ∨
      lowerChar c = [c] := by
  unfold lowerChar mapCase
  rw [if_neg (by omega)]
  split
  · next codes hcodes =>
    simp only [lowerExpansions, List.lookup_cons, List.lookup_nil] at hcodes
    split at hcodes
    · next heq =>
      cases hcodes
      exact .inl ⟨by simpa using heq, rfl⟩
    · cases hcodes
  · split
    · next n hn =>
      obtain ⟨r, hr, hn⟩ := List.exists_of_findSome?_eq_some hn
      exact .inr (.inl ⟨r, hr, n, hn, rfl⟩)
    · exact .inr (.inr rfl)

/-- A run takes a character of an identifier to another one or to a small letter of ASCII. -/
theorem contains_ofNat_of_map? {s : CharSet} (hs : s ∈ [identifierStarts, identifierContinuations])
    {r : CaseRun} (hr : r ∈ lowerRuns) {n : Nat} (hn : r.map? c.toNat = some n)
    (hc : s.contains c = true) :
    (Char.ofNat n).isAlpha = true ∨
      0x80 ≤ (Char.ofNat n).toNat ∧ s.contains (Char.ofNat n) = true := by
  obtain ⟨hbeyond, hkeeps⟩ := Bool.and_eq_true_iff.mp (List.all_eq_true.mp tablesFit.keeps s hs)
  have himage := CaseRun.covers_of_map? (List.all_eq_true.mp hkeeps r hr) hn
    (CharSet.covers_cons_of_contains hc _)
  exact CharSet.isAlpha_or_contains hbeyond (by decide) himage

/-- In ASCII, lowercasing is a matter of 128 characters. -/
theorem lowerChar_ascii (h : c.toNat < 0x80) : lowerChar c = [c.toLower] ∧
    (isIdentifierContinue c = true → isIdentifierContinue c.toLower = true) ∧
    (isIdentifierStart c = true → isIdentifierStart c.toLower = true) := by
  have hc := tablesFit.ascii c.toNat h
  rw [Char.ofNat_toNat] at hc
  exact ⟨by simp [lowerChar, h], hc⟩

namespace IsLowerForm

/-- The lowercase forms of what can follow in an identifier can follow in one. -/
theorem isIdentifierContinue (h : IsLowerForm c image)
    (hc : Text.isIdentifierContinue c = true) :
    ∀ d ∈ image, Text.isIdentifierContinue d = true := by
  obtain ⟨hdot, hfinal, hsigma, _⟩ := tablesFit.irregular
  rcases h with rfl | ⟨rfl, rfl | rfl⟩
  · by_cases hascii : c.toNat < 0x80
    · obtain ⟨hlower, hcontinue, _⟩ := lowerChar_ascii hascii
      simpa [hlower] using hcontinue hc
    · have hset := hc
      simp only [Text.isIdentifierContinue, if_neg hascii] at hset
      rcases lowerChar_cases (Nat.le_of_not_lt hascii) with
        ⟨_, himage⟩ | ⟨r, hr, n, hn, himage⟩ | himage
      · simp [himage, hdot, Code.isIdentifierContinue_of_isAlpha]
      · rcases contains_ofNat_of_map? (by simp) hr hn hset with halpha | ⟨hbeyond, hin⟩
        · simpa [himage] using Code.isIdentifierContinue_of_isAlpha halpha
        · simp [himage, Text.isIdentifierContinue, hin, Nat.not_lt.mpr hbeyond]
      · simpa [himage] using hc
  · simpa using hfinal
  · simpa using hsigma

/-- A lowercase form of what can begin an identifier begins one. -/
theorem exists_cons (h : IsLowerForm c image) (hc : isIdentifierStart c = true) :
    ∃ d ds, image = d :: ds ∧ isIdentifierStart d = true ∧
      ∀ e ∈ ds, Text.isIdentifierContinue e = true := by
  obtain ⟨hdot, _, _, hfinal, hsigma, _⟩ := tablesFit.irregular
  rcases h with rfl | ⟨rfl, rfl | rfl⟩
  · by_cases hascii : c.toNat < 0x80
    · obtain ⟨hlower, _, hstart⟩ := lowerChar_ascii hascii
      exact ⟨_, _, hlower, hstart hc, by simp⟩
    · have hset := hc
      simp only [isIdentifierStart, if_neg hascii] at hset
      rcases lowerChar_cases (Nat.le_of_not_lt hascii) with
        ⟨_, himage⟩ | ⟨r, hr, n, hn, himage⟩ | himage
      · exact ⟨_, _, himage, by decide, by simpa using hdot⟩
      · refine ⟨_, _, himage, ?_, by simp⟩
        rcases contains_ofNat_of_map? (by simp) hr hn hset with halpha | ⟨hbeyond, hin⟩
        · exact Code.isIdentifierStart_of_isAlpha halpha
        · simp [isIdentifierStart, hin, Nat.not_lt.mpr hbeyond]
      · exact ⟨_, _, himage, hc, by simp⟩
  · exact ⟨_, _, rfl, hfinal, by simp⟩
  · exact ⟨_, _, rfl, hsigma, by simp⟩

/-- A lowercase form of a character of ASCII is a single character. -/
theorem eq_of_ascii (h : IsLowerForm c image) (hc : c.toNat < 0x80) : image = [c.toLower] := by
  rcases h with rfl | ⟨rfl, _⟩
  · exact (lowerChar_ascii hc).1
  · exact absurd hc (by decide)

/-- A mark has no case. -/
theorem eq_of_attachesBackward (h : IsLowerForm c image) (hc : attachesBackward c = true) :
    image = [c] := by
  obtain ⟨_, _, _, _, _, hcapital, hsigma⟩ := tablesFit.irregular
  have hbeyond : 0x80 ≤ c.toNat := by
    rw [attachesBackward, Bool.and_eq_true] at hc
    exact of_decide_eq_true hc.1
  rcases h with rfl | ⟨rfl, _⟩
  · rcases lowerChar_cases hbeyond with ⟨hcode, _⟩ | ⟨r, hr, n, hn, _⟩ | himage
    · obtain rfl : c = 'İ' := by rw [← Char.ofNat_toNat c, hcode]
      simp [hcapital] at hc
    · obtain ⟨hfirst, hlast, _⟩ := CaseRun.map?_eq_some hn
      have hletter : loweredLetters.covers c.toNat c.toNat = true :=
        CharSet.covers_iff.mpr ⟨_, List.mem_map_of_mem hr, hfirst, hlast⟩
      rw [not_covers_of_attachesBackward hc (by simp)] at hletter
      cases hletter
    · exact himage
  · simp [hsigma] at hc

end IsLowerForm

/-! ## Capital letters -/

/-- What names in upper case need of the tables. -/
structure UpperTablesFit : Prop where
  /-- Characters of identifiers beyond ASCII are taken to others or to capital letters. The images
  of one run have gaps between them, so its points are taken one by one. -/
  keeps : upperRuns.all (fun r => r.keeps identifierContinuations.withCapitals ||
    r.points.all fun n =>
      identifierContinuations.withCapitals.covers (r.image n) (r.image n)) = true
  /-- What grows becomes characters of identifiers. -/
  grown : ∀ entry ∈ upperExpansions, ∀ n ∈ entry.2, isIdentifierContinue (Char.ofNat n) = true
  ascii : ∀ n < 0x80, isIdentifierContinue (Char.ofNat n) = true →
    isIdentifierContinue (Char.ofNat n).toUpper = true
  /-- What can begin an identifier can follow in one. -/
  starts : CharSet.areWithin identifierStarts.spans identifierContinuations.spans = true

theorem upperTablesFit : UpperTablesFit where
  keeps := by decide +kernel
  grown := by decide +kernel
  ascii := by decide +kernel
  starts := by decide +kernel

/-- What can begin an identifier can follow in one. -/
theorem isIdentifierContinue_of_isIdentifierStart (h : isIdentifierStart c = true) :
    isIdentifierContinue c = true := by
  unfold isIdentifierStart at h
  unfold isIdentifierContinue
  split at h
  · next hascii =>
    rw [if_pos hascii]
    rcases Bool.or_eq_true_iff.mp h with halpha | hunderscore
    · simp [Char.isAlphanum, halpha]
    · simp [hunderscore]
  · next hascii =>
    rw [if_neg hascii, CharSet.contains_eq_covers]
    rw [CharSet.contains_eq_covers] at h
    exact CharSet.covers_of_areWithin upperTablesFit.starts h

/-- The uppercase form of what can follow in an identifier can follow in one. -/
theorem isIdentifierContinue_of_mem_upperChar (hc : isIdentifierContinue c = true) :
    ∀ d ∈ upperChar c, isIdentifierContinue d = true := by
  unfold upperChar mapCase
  split
  · next hascii =>
    have hupper := upperTablesFit.ascii c.toNat hascii
    rw [Char.ofNat_toNat] at hupper
    simpa using hupper hc
  · next hascii =>
    split
    · next codes hcodes =>
      obtain ⟨before, after, hsplit, _⟩ := List.lookup_eq_some_iff.mp hcodes
      have hentry : (c.toNat, codes) ∈ upperExpansions := hsplit ▸ by simp
      intro d hd
      obtain ⟨n, hn, rfl⟩ := List.mem_map.mp hd
      exact upperTablesFit.grown _ hentry n hn
    · split
      · next n hn =>
        obtain ⟨r, hr, hn⟩ := List.exists_of_findSome?_eq_some hn
        have hset := hc
        simp only [isIdentifierContinue, if_neg hascii] at hset
        have hbeyond : identifierContinuations.isBeyondAscii = true :=
          (Bool.and_eq_true_iff.mp
            (List.all_eq_true.mp tablesFit.keeps identifierContinuations (by simp))).1
        have himage : identifierContinuations.withCapitals.covers n n = true := by
          rcases Bool.or_eq_true_iff.mp (List.all_eq_true.mp upperTablesFit.keeps r hr) with
            hkeeps | hpoints
          · exact CaseRun.covers_of_map? hkeeps hn (CharSet.covers_cons_of_contains hset _)
          · obtain ⟨_, _, rfl⟩ := CaseRun.map?_eq_some hn
            exact List.all_eq_true.mp hpoints _ (CaseRun.mem_points_of_map? hn)
        rw [List.forall_mem_singleton]
        rcases CharSet.isAlpha_or_contains hbeyond (by decide) himage with halpha | ⟨hlarge, hin⟩
        · exact Code.isIdentifierContinue_of_isAlpha halpha
        · simp [isIdentifierContinue, hin, Nat.not_lt.mpr hlarge]
      · simpa using hc

theorem isIdentifierContinue_of_mem_upperList {cs : List Char}
    (hcs : ∀ c ∈ cs, isIdentifierContinue c = true) :
    ∀ d ∈ upperList cs, isIdentifierContinue d = true := by
  intro d hd
  obtain ⟨c, hc, hd⟩ := List.mem_flatMap.mp hd
  exact isIdentifierContinue_of_mem_upperChar (hcs c hc) d hd

end DaoGen.Text
