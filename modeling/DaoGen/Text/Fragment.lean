/-!
# Parts of a text

Prefixes, suffixes and pieces between separators.
-/
namespace DaoGen.Text

/-- What follows a prefix. -/
def afterPrefix? : List Char → List Char → Option (List Char)
  | [], cs => some cs
  | p :: ps, c :: cs => if p = c then afterPrefix? ps cs else none
  | _ :: _, [] => none

theorem afterPrefix?_eq_some_iff {start cs rest : List Char} :
    afterPrefix? start cs = some rest ↔ cs = start ++ rest := by
  induction start generalizing cs with
  | nil => simp [afterPrefix?, eq_comm]
  | cons p ps ih =>
    cases cs with
    | nil => simp [afterPrefix?]
    | cons c cs =>
      by_cases h : p = c
      · simp [afterPrefix?, h, ih]
      · simp [afterPrefix?, h, Ne.symm h]

/-- The text after a prefix that it begins with. -/
def stripPrefix? (start s : String) : Option String :=
  (afterPrefix? start.toList s.toList).map String.ofList

theorem stripPrefix?_eq_some_iff {start s rest : String} :
    stripPrefix? start s = some rest ↔ s = start ++ rest := by
  rw [stripPrefix?, Option.map_eq_some_iff]
  constructor
  · rintro ⟨chars, hchars, rfl⟩
    rw [afterPrefix?_eq_some_iff] at hchars
    exact String.toList_injective (by simp [hchars])
  · rintro rfl
    exact ⟨rest.toList, afterPrefix?_eq_some_iff.mpr String.toList_append, String.ofList_toList⟩

/-- The text before a suffix that it ends with. -/
def stripSuffix? (ending s : String) : Option String :=
  (afterPrefix? ending.toList.reverse s.toList.reverse).map fun rest => String.ofList rest.reverse

/-- Removes a prefix as often as the text begins with it, at most `fuel` times. -/
def stripRepeated (start : List Char) : Nat → List Char → List Char
  | 0, cs => cs
  | fuel + 1, cs =>
    match afterPrefix? start cs with
    | some rest => stripRepeated start fuel rest
    | none => cs

/-- The text without the copies of a prefix at its front. -/
def trimPrefix (start s : String) : String :=
  String.ofList (stripRepeated start.toList s.toList.length s.toList)

/-- What follows the last `::`, if there is one. -/
def afterLastColons? : List Char → Option (List Char)
  | [] => none
  | c :: cs =>
    match afterLastColons? cs with
    | some rest => some rest
    | none =>
      match c, cs with
      | ':', ':' :: rest => some rest
      | _, _ => none

/-- What stands before the last `::`, if there is one. -/
def beforeLastColons? (s : String) : Option String :=
  (afterLastColons? s.toList).map fun rest =>
    String.ofList (s.toList.take (s.toList.length - rest.length - 2))

/-- The last of the pieces between `::`. -/
def lastSegment (s : String) : String :=
  match afterLastColons? s.toList with
  | some rest => String.ofList rest
  | none => s

/-- Whether a text has a `::` in it. -/
def hasColons (s : String) : Bool := (afterLastColons? s.toList).isSome

/-- The text before and after the first copy of a character. -/
def splitFirst? (mark : Char) : List Char → Option (List Char × List Char)
  | [] => none
  | c :: cs =>
    if c = mark then some ([], cs)
    else (splitFirst? mark cs).map fun (before, after) => (c :: before, after)

theorem splitFirst?_eq_some_iff {mark : Char} {cs before after : List Char} :
    splitFirst? mark cs = some (before, after) ↔ cs = before ++ mark :: after ∧ mark ∉ before := by
  induction cs generalizing before with
  | nil => simp [splitFirst?]
  | cons c cs ih =>
    rw [splitFirst?]
    by_cases hc : c = mark
    · cases before <;> grind
    · rw [if_neg hc, Option.map_eq_some_iff]
      cases before <;> grind

theorem splitFirst?_eq_none_iff {mark : Char} {cs : List Char} :
    splitFirst? mark cs = none ↔ mark ∉ cs := by
  induction cs with
  | nil => simp [splitFirst?]
  | cons c cs ih =>
    by_cases hc : c = mark
    · simp [splitFirst?, hc]
    · simp [splitFirst?, hc, ih, Ne.symm hc]

/-- The pieces between the copies of a character; there is always at least one. -/
def pieces (mark : Char) : List Char → List (List Char)
  | [] => [[]]
  | c :: cs =>
    if c = mark then [] :: pieces mark cs
    else
      match pieces mark cs with
      | piece :: rest => (c :: piece) :: rest
      | [] => [[c]]

theorem pieces_ne_nil (mark : Char) (cs : List Char) : pieces mark cs ≠ [] := by
  cases cs with
  | nil => simp [pieces]
  | cons c cs =>
    unfold pieces
    split
    · simp
    · split <;> simp

end DaoGen.Text
