import DaoGen.Proofs.Code.Spelling
import DaoGen.Proofs.Text.LetterCase
import DaoGen.Text.Words

/-!
# Names in snake case

The snake case of an identifier is an identifier again, unless a reserved word comes out: words are
only lowercased and joined by underscores, and the mark of raw identifiers is no place where a word
ends.

## Main definitions

* `Lowers`, `Snakes`: what the snake case of a text can be, character by character.

## Main results

* `Snakes.of_clusters`: the snake case of a text is one of these.
* `parseName_snakeCase`: when the snake case of an identifier is a name.
-/
namespace DaoGen

namespace Text

/-! ## Lowercase text -/

/-- Text and the lowercase forms of its characters, one after the other. -/
inductive Lowers : List Char → List Char → Prop where
  | nil : Lowers [] []
  | cons {c : Char} {image cs ds : List Char} (himage : IsLowerForm c image) (h : Lowers cs ds) :
    Lowers (c :: cs) (image ++ ds)

namespace Lowers

theorem lowerAfter (before cs : List Char) : Lowers cs (Text.lowerAfter before cs) := by
  induction cs generalizing before with
  | nil => exact .nil
  | cons c cs ih =>
    refine .cons ?_ (ih (c :: before))
    split
    · next hsigma =>
      refine .inr ⟨hsigma, ?_⟩
      split
      · exact .inl rfl
      · exact .inr rfl
    · exact .inl rfl

theorem eq_append {a b ds : List Char} (h : Lowers (a ++ b) ds) :
    ∃ x y, ds = x ++ y ∧ Lowers a x ∧ Lowers b y := by
  induction a generalizing ds with
  | nil => exact ⟨[], ds, rfl, .nil, h⟩
  | cons c a ih =>
    cases h with
    | cons himage h =>
      obtain ⟨x, y, rfl, hx, hy⟩ := ih h
      exact ⟨_, y, (List.append_assoc _ _ _).symm, .cons himage hx, hy⟩

/-- The lowercase forms of characters that can follow in an identifier can follow in one. -/
theorem isIdentifierContinue {cs ds : List Char} (h : Lowers cs ds)
    (hcs : ∀ c ∈ cs, Text.isIdentifierContinue c = true) :
    ∀ d ∈ ds, Text.isIdentifierContinue d = true := by
  induction h with
  | nil => exact hcs
  | cons himage _ ih =>
    rw [List.forall_mem_cons] at hcs
    exact List.forall_mem_append.mpr ⟨himage.isIdentifierContinue hcs.1, ih hcs.2⟩

/-- In ASCII every character has one lowercase form, which is a single character. -/
theorem eq_map {cs ds : List Char} (h : Lowers cs ds) (hcs : ∀ c ∈ cs, c.toNat < 0x80) :
    ds = cs.map Char.toLower := by
  induction h with
  | nil => rfl
  | cons himage _ ih =>
    rw [List.forall_mem_cons] at hcs
    rw [himage.eq_of_ascii hcs.1, ih hcs.2]
    rfl

end Lowers

/-! ## Words joined by underscores -/

/-- Text and a snake case of it: separators become underscores, letters are lowercased, and after a
letter an underscore may be put in. -/
inductive Snakes : List Char → List Char → Prop where
  | nil : Snakes [] []
  | separator {c : Char} {cs ds : List Char} (hc : c ∈ ['_', '-', ' ']) (h : Snakes cs ds) :
    Snakes (c :: cs) ('_' :: ds)
  | letter {c : Char} {image cs ds : List Char} (himage : IsLowerForm c image)
    (h : Snakes cs ds) : Snakes (c :: cs) (image ++ ds)
  | cut {c : Char} {image cs ds : List Char} (himage : IsLowerForm c image)
    (h : Snakes cs ds) : Snakes (c :: cs) (image ++ '_' :: ds)

namespace Snakes

variable {cs ds : List Char}

theorem letters {a x : List Char} (ha : Lowers a x) (h : Snakes cs ds) :
    Snakes (a ++ cs) (x ++ ds) := by
  induction ha with
  | nil => exact h
  | cons himage _ ih => exact List.append_assoc _ _ _ ▸ ih.letter himage

theorem letters_cut {a x : List Char} (ha : Lowers a x) (hne : a ≠ []) (h : Snakes cs ds) :
    Snakes (a ++ cs) (x ++ '_' :: ds) := by
  induction ha with
  | nil => contradiction
  | @cons c image a x himage ha ih =>
    rw [List.append_assoc]
    by_cases hlast : a = []
    · subst hlast
      cases ha
      exact h.cut himage
    · exact (ih hlast).letter himage

/-- The snake case of characters that can follow in an identifier can follow in one. -/
theorem isIdentifierContinue (h : Snakes cs ds)
    (hcs : ∀ c ∈ cs, Text.isIdentifierContinue c = true) :
    ∀ d ∈ ds, Text.isIdentifierContinue d = true := by
  have hunderscore : Text.isIdentifierContinue '_' = true := by decide
  induction h with
  | nil => exact hcs
  | separator _ _ ih =>
    rw [List.forall_mem_cons] at hcs
    exact List.forall_mem_cons.mpr ⟨hunderscore, ih hcs.2⟩
  | letter himage _ ih =>
    rw [List.forall_mem_cons] at hcs
    exact List.forall_mem_append.mpr ⟨himage.isIdentifierContinue hcs.1, ih hcs.2⟩
  | cut himage _ ih =>
    rw [List.forall_mem_cons] at hcs
    exact List.forall_mem_append.mpr ⟨himage.isIdentifierContinue hcs.1,
      List.forall_mem_cons.mpr ⟨hunderscore, ih hcs.2⟩⟩

/-- The snake case of a plain identifier is one. -/
theorem plainIdentifier (h : Snakes cs ds) (hcs : Code.plainIdentifier cs = some (cs, [])) :
    Code.plainIdentifier ds = some (ds, []) := by
  obtain ⟨c, tail, rfl, hstart, htail⟩ := Code.plainIdentifier_eq_self hcs
  cases h with
  | separator _ h => exact Code.plainIdentifier_cons (by decide) (h.isIdentifierContinue htail)
  | letter himage h =>
    obtain ⟨d, image, rfl, hd, himage⟩ := himage.exists_cons hstart
    exact Code.plainIdentifier_cons hd
      (List.forall_mem_append.mpr ⟨himage, h.isIdentifierContinue htail⟩)
  | cut himage h =>
    obtain ⟨d, image, rfl, hd, himage⟩ := himage.exists_cons hstart
    exact Code.plainIdentifier_cons hd (List.forall_mem_append.mpr ⟨himage,
      List.forall_mem_cons.mpr ⟨by decide, h.isIdentifierContinue htail⟩⟩)

end Snakes

/-! ## Clusters -/

theorem ne_nil_of_mem_clustersAfter {before : Bool} {cs cluster : List Char}
    (h : cluster ∈ clustersAfter before cs) : cluster ≠ [] := by
  induction cs generalizing before cluster with
  | nil => cases h
  | cons c cs ih =>
    rw [clustersAfter] at h
    split at h
    · split at h <;> grind
    · grind

/-- The text of words joined by underscores, given that the first one begins with `current`. -/
def joinedWords (current : List Char) (clusters : List (List Char)) : List Char :=
  ['_'].intercalate ((wordsFrom current clusters).map lowerList)

theorem wordsFrom_ne_nil (current : List Char) (clusters : List (List Char)) :
    wordsFrom current clusters ≠ [] := by
  fun_induction wordsFrom current clusters <;> simp_all

theorem intercalate_cons_of_ne_nil {α : Type} (sep a : List α) {as : List (List α)} (h : as ≠ []) :
    sep.intercalate (a :: as) = a ++ sep ++ sep.intercalate as := by
  obtain ⟨b, as, rfl⟩ := List.exists_cons_of_ne_nil h
  rw [List.intercalate_cons_cons]

theorem joinedWords_cut {current word : List Char} {clusters rest : List (List Char)}
    (h : wordsFrom current clusters = word :: wordsFrom [] rest) :
    joinedWords current clusters = lowerList word ++ '_' :: joinedWords [] rest := by
  rw [joinedWords, h, List.map_cons, intercalate_cons_of_ne_nil _ _ (by simp [wordsFrom_ne_nil])]
  simp [joinedWords]

theorem eq_of_separator {cluster : List Char} (h : ClusterKind.of cluster = .separator) :
    ∃ c ∈ ['_', '-', ' '], cluster = [c] := by
  rw [ClusterKind.of] at h
  split at h
  · next hcluster => simpa using hcluster
  · grind

/-- What has been read of the first word is lowercased; the snake case of the rest follows. -/
theorem Snakes.of_clusters (current : List Char) {clusters : List (List Char)}
    (hclusters : ∀ cluster ∈ clusters, cluster ≠ []) :
    ∃ x ds, joinedWords current clusters = x ++ ds ∧ Lowers current x ∧
      Snakes clusters.flatten ds := by
  induction clusters generalizing current with
  | nil =>
    exact ⟨lowerList current, [], by simp [joinedWords, wordsFrom], .lowerAfter [] current, .nil⟩
  | cons cluster rest ih =>
    rw [List.forall_mem_cons] at hclusters
    obtain ⟨hne, hrest⟩ := hclusters
    by_cases hseparator : ClusterKind.of cluster = .separator
    · obtain ⟨x, ds, htext, hx, hds⟩ := ih [] hrest
      obtain ⟨c, hc, rfl⟩ := eq_of_separator hseparator
      cases hx
      have hwords : wordsFrom current ([c] :: rest) = current :: wordsFrom [] rest := by
        rw [wordsFrom, if_pos hseparator]
      refine ⟨lowerList current, '_' :: ds, ?_, .lowerAfter [] current, hds.separator hc⟩
      rw [joinedWords_cut hwords, htext, List.nil_append]
    · by_cases hend : endsWord (.of cluster) ((rest.take 2).map .of) = true
      · obtain ⟨x, ds, htext, hx, hds⟩ := ih [] hrest
        cases hx
        have hwords : wordsFrom current (cluster :: rest) =
            (current ++ cluster) :: wordsFrom [] rest := by
          rw [wordsFrom, if_neg hseparator, if_pos hend]
        obtain ⟨x, y, hword, hx, hy⟩ := (Lowers.lowerAfter [] (current ++ cluster)).eq_append
        refine ⟨x, y ++ '_' :: ds, ?_, hx, hds.letters_cut hy hne⟩
        rw [joinedWords_cut hwords, htext, lowerList, hword, List.append_assoc, List.nil_append]
      · obtain ⟨x, ds, htext, hx, hds⟩ := ih (current ++ cluster) hrest
        obtain ⟨x, y, rfl, hx, hy⟩ := hx.eq_append
        refine ⟨x, y ++ ds, ?_, hx, hds.letters hy⟩
        rw [← List.append_assoc, ← htext, joinedWords, wordsFrom, if_neg hseparator, if_neg hend,
          joinedWords]

theorem toList_snakeCase (s : String) :
    (snakeCase s).toList = joinedWords [] (clusters s.toList) := String.toList_ofList

theorem Snakes.snakeCase (s : String) : Snakes s.toList (Text.snakeCase s).toList := by
  have hne : ∀ cluster ∈ clusters s.toList, cluster ≠ [] := fun _ => ne_nil_of_mem_clustersAfter
  obtain ⟨x, ds, htext, hx, hds⟩ := Snakes.of_clusters [] hne
  cases hx
  rw [flatten_clusters] at hds
  rwa [toList_snakeCase, htext]

/-! ## Raw identifiers -/

/-- A mark attaches to nothing that follows it, and it is no pictograph. -/
theorem attachesForward_of_attachesBackward {c : Char} (h : attachesBackward c = true) :
    attachesForward c = false ∧ isPictograph c = false := by
  constructor
  · simp [attachesForward, CharSet.contains_eq_covers,
      not_covers_of_attachesBackward h (s := clusterPrepends) (by simp)]
  · simp [isPictograph, CharSet.contains_eq_covers,
      not_covers_of_attachesBackward h (s := pictographs) (by simp)]

theorem exists_clustersAfter_cons (before : Bool) (c : Char) (cs : List Char) :
    ∃ rest later, clustersAfter before (c :: cs) = (c :: rest) :: later := by
  rw [clustersAfter]
  split
  · split
    · exact ⟨_, _, rfl⟩
    · exact ⟨_, _, rfl⟩
  · exact ⟨_, _, rfl⟩

/-- Where nothing attaches to what follows, only marks join a cluster. -/
theorem clusters_cons {a : Char} (hforward : attachesForward a = false)
    (hpictograph : isPictograph a = false) {cs : List Char} (hcs : '\n' ∉ cs) :
    ∃ marks later, clusters (a :: cs) = (a :: marks) :: later ∧
      (∀ c ∈ marks, attachesBackward c = true) ∧ marks ++ later.flatten = cs := by
  induction cs generalizing a with
  | nil => exact ⟨[], [], rfl, by simp, rfl⟩
  | cons d cs ih =>
    rw [List.mem_cons, not_or] at hcs
    obtain ⟨hline, hcs⟩ := hcs
    have hends : endsPictograph false a = false := by simp [endsPictograph, hpictograph]
    by_cases hjoins : joins false a d = true
    · have hback : attachesBackward d = true := by
        simp [joins, hforward, Ne.symm hline] at hjoins
        exact hjoins.2
      obtain ⟨hforward', hpictograph'⟩ := attachesForward_of_attachesBackward hback
      obtain ⟨marks, later, heq, hmarks, hflatten⟩ := ih hforward' hpictograph' hcs
      refine ⟨d :: marks, later, ?_, List.forall_mem_cons.mpr ⟨hback, hmarks⟩, by simp [hflatten]⟩
      rw [clusters] at heq ⊢
      rw [clustersAfter, hends, heq]
      simp only [hjoins, if_true]
    · obtain ⟨rest, later, heq⟩ := exists_clustersAfter_cons false d cs
      refine ⟨[], clusters (d :: cs), ?_, by simp, flatten_clusters _⟩
      rw [clusters, clusters, clustersAfter, hends, heq]
      simp only [if_neg hjoins]

/-- A cluster that begins with the mark of raw identifiers is neither uppercase nor of digits. -/
theorem kind_of_hash {marks : List Char} (hmarks : ∀ c ∈ marks, attachesBackward c = true) :
    ClusterKind.of ('#' :: marks) = .other ∨ ClusterKind.of ('#' :: marks) = .lower := by
  have hlower {cs ds : List Char} (h : Lowers cs ds) (hcs : ∀ c ∈ cs, attachesBackward c = true) :
      ds = cs := by
    induction h with
    | nil => rfl
    | cons himage _ ih =>
      rw [List.forall_mem_cons] at hcs
      rw [ih hcs.2, himage.eq_of_attachesBackward hcs.1, List.singleton_append]
  have hsame : lowerList ('#' :: marks) = '#' :: marks :=
    congrArg (List.cons '#') (hlower (.lowerAfter ['#'] marks) hmarks)
  have hdigits : ('#' :: marks).all Char.isDigit = false := rfl
  simp only [ClusterKind.of, hsame, hdigits]
  grind

/-- No word ends between the letter and the mark of raw identifiers. -/
theorem wordsFrom_raw {marks : List Char} (hmarks : ∀ c ∈ marks, attachesBackward c = true)
    (later : List (List Char)) :
    wordsFrom [] (['r'] :: ('#' :: marks) :: later) =
      wordsFrom ['r'] (('#' :: marks) :: later) := by
  have hletter : ClusterKind.of ['r'] = .lower := by decide +kernel
  rw [wordsFrom, hletter, if_neg (by decide)]
  rcases kind_of_hash hmarks with hkind | hkind <;> simp [endsWord, hkind]

/-- The snake case of a raw identifier is that of its word, after the mark. -/
theorem Snakes.raw {word : List Char} (hword : '\n' ∉ word) :
    ∃ ds, joinedWords [] (clusters ('r' :: '#' :: word)) = 'r' :: '#' :: ds ∧ Snakes word ds := by
  obtain ⟨marks, later, hclusters, hmarks, rfl⟩ := clusters_cons (a := '#') rfl rfl hword
  have hraw : clusters ('r' :: '#' :: (marks ++ later.flatten)) =
      ['r'] :: ('#' :: marks) :: later := by
    rw [clusters] at hclusters ⊢
    rw [clustersAfter, show endsPictograph false 'r' = false from rfl, hclusters]
    rfl
  have hne : ∀ cluster ∈ later, cluster ≠ [] := fun cluster hcluster =>
    ne_nil_of_mem_clustersAfter (hclusters ▸ List.mem_cons_of_mem _ hcluster)
  have hseparator : ClusterKind.of ('#' :: marks) ≠ .separator := by
    rcases kind_of_hash hmarks with hkind | hkind <;> simp [hkind]
  rw [hraw, joinedWords, wordsFrom_raw hmarks]
  by_cases hend : endsWord (.of ('#' :: marks)) ((later.take 2).map .of) = true
  · obtain ⟨x, ds, htext, hx, hds⟩ := Snakes.of_clusters [] hne
    cases hx
    have hmarked : marks ≠ [] := by
      rintro rfl
      have hhash : ClusterKind.of ['#'] = .other := by decide +kernel
      simp [endsWord, hhash] at hend
    have hwords : wordsFrom ['r'] (('#' :: marks) :: later) =
        ('r' :: '#' :: marks) :: wordsFrom [] later := by
      rw [wordsFrom, if_neg hseparator, if_pos hend]
      rfl
    refine ⟨lowerAfter ['#', 'r'] marks ++ '_' :: ds, ?_,
      hds.letters_cut (.lowerAfter ['#', 'r'] marks) hmarked⟩
    rw [← joinedWords, joinedWords_cut hwords, htext]
    rfl
  · obtain ⟨x, ds, htext, hx, hds⟩ := Snakes.of_clusters ('r' :: '#' :: marks) hne
    cases hx with
    | cons hletter hx =>
      cases hx with
      | @cons _ _ _ x hhash hx =>
        refine ⟨x ++ ds, ?_, hds.letters hx⟩
        rw [wordsFrom, if_neg hseparator, if_neg hend, ← joinedWords]
        rw [hletter.eq_of_ascii (by decide), hhash.eq_of_ascii (by decide)] at htext
        exact htext

end Text

/-! ## Names -/

namespace Code

/-- Names that cannot be used: the reserved words, and those that are never raw after the mark of
raw identifiers. -/
def unusableNames : List String := reservedWords ++ neverRaw.map ("r#" ++ ·)

/-- An identifier is a name if it is no reserved word. -/
theorem parseName_of_isWord {text : String} (h : IsWord text) :
    parseName text = if isName text then some text else none := by
  have hliteral : startsLiteral text.toList = false := by
    have hnone : isFresh [] = true := rfl
    simpa using startsLiteral_append_fresh h hnone
  obtain ⟨c, cs, htext, hstart⟩ := isIdentifierStart_of_identifier h
  have hahead := ahead_of_isIdentifierStart htext hstart
  split
  · next hname =>
    rw [parseName_eq_some_iff, hahead]
    exact ⟨hliteral, text.toList, [], h, rfl, String.ofList_toList.symm, hname⟩
  · next hname =>
    refine Option.eq_none_iff_forall_ne_some.mpr fun name heq => hname ?_
    obtain ⟨_, _, _, _, _, _, hisName⟩ := parseName_eq_some_iff.mp heq
    exact eq_of_parseName h heq ▸ hisName

theorem hash_notMem_of_mem_reservedWords :
    ∀ word ∈ reservedWords, '#' ∉ word.toList := by
  decide

/-- Text of the form of an identifier, perhaps after the mark of raw identifiers, where it may be a
word that is never raw. -/
def HasWordForm (cs : List Char) : Prop :=
  plainIdentifier cs = some (cs, []) ∨
    ∃ word, cs = 'r' :: '#' :: word ∧ plainIdentifier word = some (word, [])

theorem hasWordForm_of_isWord {name : String} (h : IsWord name) : HasWordForm name.toList :=
  (identifier_eq_self h).imp (·.2) fun ⟨word, hraw, hword, _⟩ => ⟨word, hraw, hword⟩

theorem hasWordForm_snakeCase {name : String} (h : IsWord name) :
    HasWordForm (Text.snakeCase name).toList := by
  rcases identifier_eq_self h with ⟨_, hword⟩ | ⟨word, hraw, hword, _⟩
  · exact .inl ((Text.Snakes.snakeCase name).plainIdentifier hword)
  · have hline : '\n' ∉ word := fun hmem => newline_notMem_of_isWord h (by simp [hraw, hmem])
    obtain ⟨ds, hds, hsnakes⟩ := Text.Snakes.raw hline
    exact .inr ⟨ds, by rw [Text.toList_snakeCase, hraw, hds], hsnakes.plainIdentifier hword⟩

/-- The snake case of an identifier is a name, unless it is one of those that cannot be used. -/
theorem parseName_snakeCase {name : String} (h : IsWord name) :
    parseName (Text.snakeCase name) =
      if Text.snakeCase name ∈ unusableNames then none else some (Text.snakeCase name) := by
  have hform := hasWordForm_snakeCase h
  generalize Text.snakeCase name = snake at hform ⊢
  rcases hform with hsnake | ⟨ds, htext, hsnakes⟩
  · have hhash := hash_notMem_of_plainIdentifier hsnake
    have hid : IsWord snake := identifier_of_plainIdentifier hsnake
    have hnotRaw : snake ∉ neverRaw.map ("r#" ++ ·) := by
      rintro hmem
      obtain ⟨word, _, rfl⟩ := List.mem_map.mp hmem
      simp at hhash
    rw [parseName_of_isWord hid]
    simp [unusableNames, hnotRaw, isName]
  · have hnotReserved : snake ∉ reservedWords := fun hmem =>
      hash_notMem_of_mem_reservedWords snake hmem (by simp [htext])
    have hnever : snake ∈ unusableNames ↔ neverRaw.contains (String.ofList ds) = true := by
      have hsnake : snake = "r#" ++ String.ofList ds := String.toList_injective (by simp [htext])
      rw [unusableNames, List.mem_append, or_iff_right hnotReserved]
      simp [hsnake]
    have hid : identifier snake.toList =
        if neverRaw.contains (String.ofList ds) then none else some (snake.toList, []) := by
      rw [htext, identifier_raw, hsnakes, Option.bind_some]
    split
    · next hmem =>
      refine Option.eq_none_iff_forall_ne_some.mpr fun name heq => ?_
      obtain ⟨_, chars, rest, hchars, _⟩ := parseName_eq_some_iff.mp heq
      rw [ahead_of_isIdentifierStart htext (by decide), hid, if_pos (hnever.mp hmem)] at hchars
      cases hchars
    · next hmem =>
      have hword : IsWord snake := by rw [IsWord, hid, if_neg (mt hnever.mpr hmem)]
      rw [parseName_of_isWord hword, if_pos (by simpa [isName] using hnotReserved)]

end Code

end DaoGen
