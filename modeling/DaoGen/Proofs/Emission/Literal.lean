import DaoGen.Emission.Record
import DaoGen.Proofs.Sql.Literal

/-!
# Treatment of statements that differ inside of literals

What a statement is recorded as, and whether it is run as one that returns rows, is read off all of
its words. Two statements that differ only inside of literals are treated alike as long as the
literals do not hold the very words that are searched for.

## Main results

* `answers_of_sameOutsideLiterals`: when two such statements are treated alike.
* `literals_change_answers`: two pairs of statements that are not.
-/
namespace DaoGen.Emission

open Sql

variable {s t : String}

/-- Of statements with the same verb, those that overwrite rows alike are recorded alike. -/
theorem RecordOperation.ofQuery?_eq_iff (hverb : verbOf s = verbOf t) :
    ofQuery? s = ofQuery? t ↔ replacesRows s = replacesRows t := by
  unfold ofQuery?
  rw [← hverb]
  cases hs : verbOf s with
  | insert => cases replacesRows s <;> cases replacesRows t <;> simp
  | select | update | delete | replace | other => simp [replacesRows, ← hverb, hs]

/-- Statements that differ only inside of literals have the same verb. They are taken to overwrite
rows alike, and are recorded alike, just if no difference inside of literals makes one of two plain
inserts seem an upsert; and they are taken to return rows alike just if no such difference makes
one seem to return rows. A table that both name before their first literal is found in both. -/
theorem answers_of_sameOutsideLiterals (h : SameOutsideLiterals s t) :
    verbOf s = verbOf t ∧
    (replacesRows s = replacesRows t ↔
      (verbOf s = .insert → replacesRows (withoutLiterals s) = false →
        holdsDoUpdate s = holdsDoUpdate t)) ∧
    (RecordOperation.ofQuery? s = RecordOperation.ofQuery? t ↔
      (verbOf s = .insert → replacesRows (withoutLiterals s) = false →
        holdsDoUpdate s = holdsDoUpdate t)) ∧
    (returnsRows s = returnsRows t ↔
      (returnsRows (withoutLiterals s) = false → holdsReturning s = holdsReturning t)) ∧
    ((isMutation s = true → ∃ place,
        tablePlace? (verbOf (withoutLiterals s)) (keywordsOf (withoutLiterals s)) = some place ∧
          ∀ w ∈ (wordsOf (withoutLiterals s)).take (place + 1), '\'' ∉ w.toList) →
      mutatedTable? s = mutatedTable? t) := by
  have hsame : withoutLiterals t = withoutLiterals s := h.symm
  have hverb : verbOf s = verbOf t := by
    rw [← verbOf_withoutLiterals s, ← verbOf_withoutLiterals t, hsame]
  have hreplaces : replacesRows s = replacesRows t ↔
      (verbOf s = .insert → replacesRows (withoutLiterals s) = false →
        holdsDoUpdate s = holdsDoUpdate t) := by
    rw [replacesRows_eq_or s, replacesRows_eq_or t, hsame, ← hverb]
    by_cases hinsert : verbOf s = .insert <;>
      cases replacesRows (withoutLiterals s) <;> simp [hinsert]
  refine ⟨hverb, hreplaces, (RecordOperation.ofQuery?_eq_iff hverb).trans hreplaces, ?_, ?_⟩
  · rw [returnsRows_eq_or s, returnsRows_eq_or t, hsame]
    cases returnsRows (withoutLiterals s) <;> simp [holdsReturning]
  · intro htable
    cases hmutation : isMutation s with
    | true =>
      obtain ⟨place, hplace, hbefore⟩ := htable hmutation
      rw [← mutatedTable?_withoutLiterals hplace hbefore, ← hsame,
        mutatedTable?_withoutLiterals (hsame ▸ hplace) (hsame ▸ hbefore)]
    | false =>
      have hmutation' : isMutation t = false := by rwa [isMutation, ← hverb]
      rw [mutatedTable?_of_not_isMutation hmutation, mutatedTable?_of_not_isMutation hmutation']

/-- Keywords that do not stand side by side in a literal change nothing. -/
theorem answers_of_sameOutsideLiterals_note :
    let s := "INSERT INTO note VALUES ('it is new')"
    let t := "INSERT INTO note VALUES ('do not update it')"
    SameOutsideLiterals s t ∧ verbOf s = verbOf t ∧ replacesRows s = replacesRows t ∧
      RecordOperation.ofQuery? s = RecordOperation.ofQuery? t ∧ returnsRows s = returnsRows t ∧
      mutatedTable? s = mutatedTable? t := by
  intro s t
  have hsame : SameOutsideLiterals s t := by decide +kernel
  have hliterals : holdsDoUpdate s = holdsDoUpdate t ∧ holdsReturning s = holdsReturning t := by
    decide +kernel
  obtain ⟨hverb, hreplaces, hrecord, hreturns, htable⟩ := answers_of_sameOutsideLiterals hsame
  exact ⟨hsame, hverb, hreplaces.mpr fun _ _ => hliterals.1, hrecord.mpr fun _ _ => hliterals.1,
    hreturns.mpr fun _ => hliterals.2, htable fun _ => ⟨2, by decide +kernel, by decide +kernel⟩⟩

/-- A literal can make a plain insert be recorded as an upsert, or an update seem to return
rows. -/
theorem literals_change_answers :
    let insert := "INSERT INTO note VALUES ('we do update it')"
    let insert' := "INSERT INTO note VALUES ('we do rewrite it')"
    let update := "UPDATE note SET body = 'not returning today'"
    let update' := "UPDATE note SET body = 'not coming today'"
    SameOutsideLiterals insert insert' ∧
      RecordOperation.ofQuery? insert = some .upsert ∧
      RecordOperation.ofQuery? insert' = some .insert ∧
      SameOutsideLiterals update update' ∧ returnsRows update = true ∧
      returnsRows update' = false := by
  decide +kernel

end DaoGen.Emission
