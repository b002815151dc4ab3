import DaoGen.Proofs.Text.SnakeCase
import DaoGen.Proofs.Text.Trimming

/-!
# Words in any letter case

A word of letters and digits of ASCII is the lowercase form of a text just if the text is the word
with some letters in upper case: beyond ASCII no character has such a lowercase form, but for the
sign for kelvins, which becomes a `k`.

## Main definitions

* `IsSpelled`: a text is a word in any letter case, with blanks around it.

## Main results

* `lowerList_eq_iff`, `lower_trim_eq_iff`: which texts become a given word.
-/
namespace DaoGen.Text

/-! ## Characters -/

/-- Letters and digits of ASCII that nothing beyond ASCII becomes in lower case. -/
def isSettled (c : Char) : Bool := c.isAlphanum && c != 'k'

theorem toNat_of_isSettled {c : Char} (h : isSettled c = true) : c.toNat < 0x80 := by
  have halphanum : c.isAlphanum = true := (Bool.and_eq_true_iff.mp h).1
  rcases Bool.or_eq_true_iff.mp halphanum with halpha | hdigit
  · have hcode := Code.toNat_of_isAlpha halpha
    omega
  · have hcode : 48 ≤ c.toNat ∧ c.toNat ≤ 57 := by
      simpa [Char.isDigit, UInt32.le_iff_toNat_le] using hdigit
    omega

/-- What a code point beyond ASCII stands for is not settled. -/
theorem not_isSettled_ofNat {n : Nat} (h : 0x80 ≤ n) : isSettled (Char.ofNat n) = false := by
  rw [Bool.eq_false_iff]
  intro hsettled
  by_cases hvalid : n.isValidChar
  · have hascii := toNat_of_isSettled hsettled
    rw [toNat_ofNat_of_isValidChar hvalid] at hascii
    omega
  · rw [Char.ofNat, dif_neg hvalid] at hsettled
    exact absurd hsettled (by decide)

/-- The runs stay beyond ASCII, but for the sign for kelvins. -/
theorem image_first_of_mem_lowerRuns :
    ∀ r ∈ lowerRuns, 0x80 ≤ r.image r.first ∨ r.first = r.last ∧ r.image r.first = 'k'.toNat := by
  decide +kernel

/-- A character beyond ASCII has something in its lowercase form that is not settled. -/
theorem IsLowerForm.exists_not_isSettled {c : Char} {image : List Char} (h : IsLowerForm c image)
    (hc : 0x80 ≤ c.toNat) : ∃ d ∈ image, isSettled d = false := by
  rcases h with rfl | ⟨_, rfl | rfl⟩
  · rcases lowerChar_cases hc with ⟨_, himage⟩ | ⟨r, hr, n, hn, himage⟩ | himage
    · exact ⟨'\u0307', by simp [himage], by decide⟩
    · refine ⟨Char.ofNat n, by simp [himage], ?_⟩
      obtain ⟨hfirst, hlast, rfl⟩ := CaseRun.map?_eq_some hn
      rcases image_first_of_mem_lowerRuns r hr with hbeyond | ⟨hsingle, hkelvin⟩
      · exact not_isSettled_ofNat (Nat.le_trans hbeyond (CaseRun.image_mono hfirst))
      · have hcode : c.toNat = r.first := by omega
        rw [hcode, hkelvin]
        decide
    · refine ⟨c, by simp [himage], ?_⟩
      rw [Bool.eq_false_iff]
      intro hsettled
      have hascii := toNat_of_isSettled hsettled
      omega
  · exact ⟨'ς', by simp, by decide⟩
  · exact ⟨'σ', by simp, by decide⟩

/-- A character beyond ASCII is no capital letter of it. -/
theorem toLower_of_le {c : Char} (h : 0x80 ≤ c.toNat) : c.toLower = c := by
  have hcapital : ¬ (c.val ≥ 'A'.val ∧ c.val ≤ 'Z'.val) := by
    intro hcapital
    have hle : c.toNat ≤ 90 := UInt32.le_iff_toNat_le.mp hcapital.2
    omega
  exact dif_neg hcapital

/-! ## Words -/

variable {cs word : List Char}

theorem Lowers.toNat_lt {ds : List Char} (h : Lowers cs ds)
    (hds : ∀ d ∈ ds, isSettled d = true) : ∀ c ∈ cs, c.toNat < 0x80 := by
  induction h with
  | nil => exact List.forall_mem_nil _
  | @cons c image cs ds himage _ ih =>
    obtain ⟨hfirst, hrest⟩ := List.forall_mem_append.mp hds
    refine List.forall_mem_cons.mpr ⟨?_, ih hrest⟩
    by_contra hbeyond
    obtain ⟨d, hd, hsettled⟩ := himage.exists_not_isSettled (Nat.le_of_not_lt hbeyond)
    rw [hfirst d hd] at hsettled
    cases hsettled

/-- Only a text in ASCII has a given word as its lowercase form. -/
theorem lowerList_eq_iff (hword : ∀ c ∈ word, isSettled c = true) :
    lowerList cs = word ↔ cs.map Char.toLower = word := by
  have hlowers := Lowers.lowerAfter [] cs
  constructor
  · rintro rfl
    exact (hlowers.eq_map (hlowers.toNat_lt hword)).symm
  · rintro rfl
    refine hlowers.eq_map fun c hc => ?_
    by_contra hbeyond
    have hsettled := hword _ (List.mem_map_of_mem hc)
    rw [toLower_of_le (Nat.le_of_not_lt hbeyond)] at hsettled
    exact hbeyond (toNat_of_isSettled hsettled)

/-- A text is a word in any letter case, with blanks around it. -/
def IsSpelled (word : String) (cs : List Char) : Prop :=
  ∃ spelling, IsAround isBlank spelling cs ∧ spelling.map Char.toLower = word.toList

theorem not_isBlank_of_isSettled {c : Char} (h : isSettled c.toLower = true) :
    isBlank c = false := by
  have hall : ∀ n < 0x80, isSettled (Char.ofNat n).toLower = true →
      isBlank (Char.ofNat n) = false := by decide +kernel
  have hascii : c.toNat < 0x80 := by
    by_contra hbeyond
    rw [toLower_of_le (Nat.le_of_not_lt hbeyond)] at h
    exact hbeyond (toNat_of_isSettled h)
  simpa [h] using hall c.toNat hascii

/-- Which texts become a given word when they are trimmed and lowercased. -/
theorem lower_trim_eq_iff {word s : String} (hword : ∀ c ∈ word.toList, isSettled c = true) :
    lower (trim s) = word ↔ IsSpelled word s.toList := by
  have htrimmed : lower (trim s) = word ↔
      (trimBoth isBlank s.toList).map Char.toLower = word.toList := by
    rw [← lowerList_eq_iff hword, lower, trim, String.toList_ofList, ← String.toList_inj,
      String.toList_ofList]
  rw [htrimmed]
  constructor
  · intro h
    exact ⟨_, isAround_trimBoth isBlank s.toList, h⟩
  · rintro ⟨spelling, haround, hspelling⟩
    have hsolid : ∀ c ∈ spelling, isBlank c = false := by
      intro c hc
      refine not_isBlank_of_isSettled (hword _ ?_)
      rw [← hspelling]
      exact List.mem_map_of_mem hc
    rw [trimBoth_eq_iff.mpr ⟨haround, isTight_of_forall hsolid⟩, hspelling]

end DaoGen.Text
