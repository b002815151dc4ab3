import DaoGen.Sql.Parameter
import Mathlib.Algebra.Group.Nat.Even
import Mathlib.Data.List.Induction

/-!
# Scans of queries

`Scan.Step` lists what the scan of a query does with one character. From it, what a scan does at a
place is told from the text before: whether a quote is open there, and how many colons the text
ends with. The parts of a query are its text again, and nothing is found in a query that has other
text in the place of its named parameters.
-/
namespace DaoGen.Sql

/-! ## Quotes and colons -/

def isQuote (c : Char) : Bool := c == '\'' || c == '"'

/-- The open quote after one more character. A quote is closed by its own kind only. -/
def quoteAfter : Option Char → Char → Option Char
  | none, c => if isQuote c then some c else none
  | some mark, c => if c = mark then none else some mark

/-- The quote that a text leaves open. -/
def openQuote (cs : List Char) : Option Char := cs.foldl quoteAfter none

/-- The number of colons at the end of a text. -/
def colonsAtEnd (cs : List Char) : Nat := (cs.reverse.takeWhile (· == ':')).length

@[simp] theorem openQuote_nil : openQuote [] = none := rfl

@[simp] theorem openQuote_append_singleton (cs : List Char) (c : Char) :
    openQuote (cs ++ [c]) = quoteAfter (openQuote cs) c := by simp [openQuote]

@[simp] theorem colonsAtEnd_nil : colonsAtEnd [] = 0 := rfl

@[simp] theorem colonsAtEnd_append_singleton (cs : List Char) (c : Char) :
    colonsAtEnd (cs ++ [c]) = if c = ':' then colonsAtEnd cs + 1 else 0 := by
  by_cases h : c = ':' <;> simp [colonsAtEnd, h]

@[simp] theorem goesOn_nil (p : Char → Bool) : goesOn p [] = false := rfl

@[simp] theorem goesOn_cons (p : Char → Bool) (c : Char) (cs : List Char) :
    goesOn p (c :: cs) = p c := rfl

theorem isNameChar_of_isNameStart {c : Char} (h : isNameStart c = true) : isNameChar c = true := by
  simp only [isNameStart, isNameChar, Char.isAlphanum] at h ⊢
  grind

theorem goesOn_isNameChar {cs : List Char} (h : goesOn isNameStart cs = true) :
    goesOn isNameChar cs = true := by
  cases cs with
  | nil => cases h
  | cons c cs => exact isNameChar_of_isNameStart h

/-- Characters of names are no quotes and no colons. -/
theorem not_isQuote_of_isNameChar {c : Char} (h : isNameChar c = true) :
    isQuote c = false ∧ c ≠ ':' := by
  have hmarks : isNameChar '\'' = false ∧ isNameChar '"' = false ∧ isNameChar ':' = false := by
    decide
  simp only [isQuote, Bool.or_eq_false_iff, beq_eq_false_iff_ne]
  refine ⟨⟨?_, ?_⟩, ?_⟩ <;> rintro rfl
  · exact absurd h (by simp [hmarks.1])
  · exact absurd h (by simp [hmarks.2.1])
  · exact absurd h (by simp [hmarks.2.2])

theorem not_goesOn_colon {cs : List Char} (h : goesOn isNameChar cs = true) :
    goesOn (· == ':') cs = false := by
  cases cs with
  | nil => rfl
  | cons c cs => simpa using (not_isQuote_of_isNameChar h).2

/-! ## One character -/

/-- The text that parts were read from. -/
def sourceOf (pieces : List Piece) : List Char := pieces.flatMap Piece.source

@[simp] theorem sourceOf_append (ps qs : List Piece) :
    sourceOf (ps ++ qs) = sourceOf ps ++ sourceOf qs := List.flatMap_append

@[simp] theorem sourceOf_chars (cs : List Char) : sourceOf (cs.map .char) = cs := by
  simp [sourceOf, List.flatMap_map, Piece.source]

namespace Scan

/-- What a scan does with a character, given the text after it: the part that ends with the
character, if one does, and where the scan stands then. -/
inductive Step : Mode → Char → List Char → List Piece → Mode → Prop where
  | opens {c after} (h : isQuote c = true) : Step .plain c after [.char c] (.quoted c)
  | colons {after} (h : goesOn (· == ':') after = true) : Step .plain ':' after [.char ':'] .cast
  | start {after} (h : goesOn isNameStart after = true) : Step .plain ':' after [] (.name [])
  | keep {c after} (hquote : isQuote c = false)
    (hcolon : c = ':' → goesOn (· == ':') after = false ∧ goesOn isNameStart after = false) :
    Step .plain c after [.char c] .plain
  | closes {mark after} : Step (.quoted mark) mark after [.char mark] .plain
  | inside {mark c after} (h : c ≠ mark) :
    Step (.quoted mark) c after [.char c] (.quoted mark)
  | cast {c after} : Step .cast c after [.char c] .plain
  | more {read c after} (h : goesOn isNameChar after = true) :
    Step (.name read) c after [] (.name (read ++ [c]))
  | last {read c after} (h : goesOn isNameChar after = false) :
    Step (.name read) c after [.param (read ++ [c])] .plain

/-- There is a step for every character. -/
theorem exists_step (mode : Mode) (c : Char) (after : List Char) :
    ∃ found next, Step mode c after found next := by
  cases mode with
  | plain =>
    by_cases hquote : isQuote c = true
    · exact ⟨_, _, .opens hquote⟩
    · by_cases hcolons : c = ':' ∧ goesOn (· == ':') after = true
      · obtain ⟨rfl, hafter⟩ := hcolons
        exact ⟨_, _, .colons hafter⟩
      · by_cases hname : c = ':' ∧ goesOn isNameStart after = true
        · obtain ⟨rfl, hafter⟩ := hname
          exact ⟨_, _, .start hafter⟩
        · exact ⟨_, _, .keep (by simpa using hquote) (by simp_all)⟩
  | quoted mark =>
    by_cases hmark : c = mark
    · subst hmark
      exact ⟨_, _, .closes⟩
    · exact ⟨_, _, .inside hmark⟩
  | cast => exact ⟨_, _, .cast⟩
  | name read =>
    cases hafter : goesOn isNameChar after with
    | true => exact ⟨_, _, .more hafter⟩
    | false => exact ⟨_, _, .last hafter⟩

/-- A scan takes one step after another. -/
theorem Step.scan_cons {mode next : Mode} {c : Char} {after : List Char} {found : List Piece}
    (h : Step mode c after found next) :
    scan mode (c :: after) = found ++ scan next after := by
  cases h with
  | opens hquote =>
    rw [scan, if_pos (by simpa [isQuote] using hquote), List.singleton_append]
  | colons hafter => simp [scan, hafter]
  | start hafter =>
    have hcolon := not_goesOn_colon (goesOn_isNameChar hafter)
    simp [scan, hafter, hcolon]
  | keep hquote hcolon =>
    have hnot : ¬ (c = '\'' ∨ c = '"') := by simpa [isQuote] using hquote
    have hcolons : ¬ (c = ':' ∧ goesOn (· == ':') after = true) := fun h => by simp_all
    have hname : ¬ (c = ':' ∧ goesOn isNameStart after = true) := fun h => by simp_all
    rw [scan, if_neg hnot, if_neg hcolons, if_neg hname, List.singleton_append]
  | closes => simp [scan]
  | inside hmark => simp [scan, hmark]
  | cast => simp [scan]
  | more hafter => simp [scan, hafter]
  | last hafter => simp [scan, hafter]

/-- The text that has been read of a part that has not ended. -/
def pending : Mode → List Char
  | .name read => ':' :: read
  | .plain | .quoted _ | .cast => []

/-- A step loses nothing. -/
theorem Step.source {mode next : Mode} {c : Char} {after : List Char} {found : List Piece}
    (h : Step mode c after found next) :
    sourceOf found ++ pending next = pending mode ++ [c] := by
  cases h <;> simp [pending, sourceOf, Piece.source]

/-- The quote that a scan stands inside. -/
def openMark? : Mode → Option Char
  | .quoted mark => some mark
  | .plain | .cast | .name _ => none

/-- Where a scan stands is told by the text before and the text after. -/
structure Between (mode : Mode) (before after : List Char) : Prop where
  openQuote_eq : openQuote before = openMark? mode
  isQuote : ∀ mark, mode = .quoted mark → isQuote mark = true
  colon : openMark? mode = none → goesOn (· == ':') after = true →
    mode = if Even (colonsAtEnd before) then .plain else .cast
  cast : mode = .cast → goesOn (· == ':') after = true
  name : ∀ read, mode = .name read → goesOn isNameChar after = true

theorem Between.start (after : List Char) : Between .plain [] after where
  openQuote_eq := rfl
  isQuote mark h := by cases h
  colon _ _ := by simp
  cast h := by cases h
  name read h := by cases h

/-- A step to a place that has no colon after it, or none that is paired with one before it. -/
theorem Between.of_plain {before after : List Char} (hquote : openQuote before = none)
    (hcolon : goesOn (· == ':') after = true → colonsAtEnd before = 0) :
    Between .plain before after where
  openQuote_eq := hquote
  isQuote mark h := by cases h
  colon _ hafter := by simp [hcolon hafter]
  cast h := by cases h
  name read h := by cases h

/-- A step goes from where the text before a character says to where the text with it says. -/
theorem Between.step {mode next : Mode} {before after : List Char} {c : Char}
    {found : List Piece} (h : Between mode before (c :: after))
    (hstep : Step mode c after found next) : Between next (before ++ [c]) after := by
  have hopen : openQuote (before ++ [c]) = quoteAfter (openMark? mode) c := by
    rw [openQuote_append_singleton, h.openQuote_eq]
  cases hstep with
  | opens hquote => exact {
      openQuote_eq := hopen.trans (if_pos hquote)
      isQuote := fun mark hmark => Mode.quoted.inj hmark ▸ hquote
      colon := nofun
      cast := nofun
      name := nofun }
  | colons hafter =>
    have hmode := h.colon rfl rfl
    have heven : Even (colonsAtEnd before) := by
      by_contra hodd
      rw [if_neg hodd] at hmode
      cases hmode
    exact {
      openQuote_eq := hopen
      isQuote := nofun
      colon := fun _ _ => by simp [heven, Nat.even_add_one]
      cast := fun _ => hafter
      name := nofun }
  | start hafter =>
    have hname := goesOn_isNameChar hafter
    exact {
      openQuote_eq := hopen
      isQuote := nofun
      colon := fun _ hcolon => by simp [not_goesOn_colon hname] at hcolon
      cast := nofun
      name := fun _ _ => hname }
  | keep hquote hcolon =>
    refine .of_plain (hopen.trans (if_neg (by simp [hquote]))) fun hafter => ?_
    have hc : c ≠ ':' := fun hc => by simp [(hcolon hc).1] at hafter
    simp [hc]
  | closes =>
    have hc : c ≠ ':' := by
      rintro rfl
      cases h.isQuote _ rfl
    exact .of_plain (hopen.trans (if_pos rfl)) fun _ => by simp [hc]
  | inside hmark => exact {
      openQuote_eq := hopen.trans (if_neg hmark)
      isQuote := h.isQuote
      colon := nofun
      cast := nofun
      name := nofun }
  | cast =>
    obtain rfl : c = ':' := by simpa using h.cast rfl
    have hmode := h.colon rfl rfl
    have hodd : ¬ Even (colonsAtEnd before) := by
      intro heven
      rw [if_pos heven] at hmode
      cases hmode
    exact {
      openQuote_eq := hopen
      isQuote := nofun
      colon := fun _ _ => by simp [hodd, Nat.even_add_one]
      cast := nofun
      name := nofun }
  | more hafter =>
    obtain ⟨hquote, hcolon⟩ := not_isQuote_of_isNameChar (h.name _ rfl)
    exact {
      openQuote_eq := hopen.trans (if_neg (by simp [hquote]))
      isQuote := nofun
      colon := fun _ hgoes => by simp [not_goesOn_colon hafter] at hgoes
      cast := nofun
      name := fun _ _ => hafter }
  | last hafter =>
    obtain ⟨hquote, hcolon⟩ := not_isQuote_of_isNameChar (h.name _ rfl)
    exact .of_plain (hopen.trans (if_neg (by simp [hquote]))) fun _ => by simp [hcolon]

/-! ## Texts -/

/-- After any part of a query, the scan stands where the two texts say, and what it has found is the
text before, up to what it is still reading. -/
theorem exists_between (before after : List Char) :
    ∃ mode found, Between mode before after ∧
      scan .plain (before ++ after) = found ++ scan mode after ∧
      sourceOf found ++ pending mode = before := by
  induction before using List.reverseRecOn generalizing after with
  | nil => exact ⟨.plain, [], .start after, rfl, rfl⟩
  | append_singleton before c ih =>
    obtain ⟨mode, found, hbetween, hscan, hfound⟩ := ih (c :: after)
    obtain ⟨found', next, hstep⟩ := exists_step mode c after
    refine ⟨next, found ++ found', hbetween.step hstep, ?_, ?_⟩
    · rw [List.append_assoc, List.singleton_append, hscan, hstep.scan_cons, List.append_assoc]
    · rw [sourceOf_append, List.append_assoc, hstep.source, ← List.append_assoc, hfound]

/-- Inside quotes, every character stays. -/
theorem scan_quoted {mark : Char} {body : List Char} (h : mark ∉ body) (after : List Char) :
    scan (.quoted mark) (body ++ after) = body.map .char ++ scan (.quoted mark) after := by
  induction body with
  | nil => rfl
  | cons c body ih =>
    have hc : c ≠ mark := fun hc => h (hc ▸ List.mem_cons_self)
    rw [List.cons_append, (Step.inside hc).scan_cons, ih fun hbody => h (.tail c hbody)]
    rfl

end Scan

/-! ## Parts of queries -/

/-- The parts of a query are its text. -/
theorem sourceOf_scan (cs : List Char) : sourceOf (scan .plain cs) = cs := by
  obtain ⟨mode, found, hbetween, hscan, hfound⟩ := Scan.exists_between cs []
  have hpending : Scan.pending mode = [] := by
    cases mode with
    | name read => cases hbetween.name read rfl
    | plain | quoted | cast => rfl
  have hnil : scan mode [] = [] := by cases mode <;> rfl
  rw [List.append_nil, hnil, List.append_nil] at hscan
  rw [hscan, ← hfound, hpending, List.append_nil]

/-- Among the parts of a query, some text of it is read as characters that stay. -/
def Keeps (pieces : List Piece) (before kept after : List Char) : Prop :=
  ∃ ps qs, pieces = ps ++ kept.map .char ++ qs ∧ sourceOf ps = before ∧ sourceOf qs = after

/-- A scan that goes on after some text as if that stayed keeps it. -/
theorem Keeps.of_scan {before kept after : List Char} {mode next : Mode} {found : List Piece}
    (hscan : scan .plain (before ++ (kept ++ after)) = found ++ scan mode (kept ++ after))
    (hfound : sourceOf found = before)
    (hkept : scan mode (kept ++ after) = kept.map .char ++ scan next after) :
    Keeps (scan .plain (before ++ (kept ++ after))) before kept after := by
  have hpieces := hscan.trans (congrArg (found ++ ·) hkept)
  refine ⟨found, scan next after, by rw [hpieces, List.append_assoc], hfound, ?_⟩
  have hsource := sourceOf_scan (before ++ (kept ++ after))
  rw [hpieces, sourceOf_append, sourceOf_append, sourceOf_chars, hfound] at hsource
  exact List.append_cancel_left (List.append_cancel_left hsource)

/-- Text after an open quote stays, up to the next copy of the quote. -/
theorem keeps_quoted {before body : List Char} {mark : Char} (hopen : openQuote before = some mark)
    (hbody : mark ∉ body) (after : List Char) :
    Keeps (scan .plain (before ++ (body ++ after))) before body after := by
  obtain ⟨mode, found, hbetween, hscan, hfound⟩ := Scan.exists_between before (body ++ after)
  have hmode := hbetween.openQuote_eq.symm.trans hopen
  cases mode with
  | quoted mark' =>
    obtain rfl : mark' = mark := Option.some.inj hmode
    exact .of_scan hscan (by simpa [Scan.pending] using hfound) (Scan.scan_quoted hbody after)
  | plain | cast | name => cases hmode

/-- Two colons outside of quotes stay, if the colons right before them can be paired. -/
theorem keeps_colons {before : List Char} (hopen : openQuote before = none)
    (heven : Even (colonsAtEnd before)) (after : List Char) :
    Keeps (scan .plain (before ++ ([':', ':'] ++ after))) before [':', ':'] after := by
  obtain ⟨mode, found, hbetween, hscan, hfound⟩ :=
    Scan.exists_between before ([':', ':'] ++ after)
  have hmode := hbetween.colon (hbetween.openQuote_eq.symm.trans hopen) rfl
  rw [if_pos heven] at hmode
  subst hmode
  have hkept : scan .plain ([':', ':'] ++ after) = [':', ':'].map .char ++ scan .plain after := by
    rw [List.cons_append, (Scan.Step.colons rfl).scan_cons, List.singleton_append,
      List.singleton_append, Scan.Step.cast.scan_cons]
    rfl
  exact .of_scan hscan (by simpa [Scan.pending] using hfound) hkept

/-! ## Rewritten queries -/

/-- The text of a part with other text in the place of a named parameter. -/
def Piece.rewritten (text : List Char → List Char) : Piece → List Char
  | .char c => [c]
  | .param name => text name

def rewrittenOf (text : List Char → List Char) (pieces : List Piece) : List Char :=
  pieces.flatMap (Piece.rewritten text)

section Rewritten

variable {text : List Char → List Char}

/-- Text without quotes and colons stays. -/
theorem scan_plain_append {cs : List Char} (h : ∀ c ∈ cs, isQuote c = false ∧ c ≠ ':')
    (after : List Char) : scan .plain (cs ++ after) = cs.map .char ++ scan .plain after := by
  induction cs with
  | nil => rfl
  | cons c cs ih =>
    obtain ⟨hquote, hcolon⟩ := h c List.mem_cons_self
    have hkeep : Scan.Step .plain c (cs ++ after) [.char c] .plain :=
      .keep hquote fun hc => absurd hc hcolon
    rw [List.cons_append, hkeep.scan_cons, ih fun d hd => h d (.tail c hd)]
    rfl

/-- A rewritten query begins as the query does, unless that begins with a colon. -/
theorem goesOn_rewrittenOf {cs : List Char} (h : goesOn (· == ':') cs = false)
    (p : Char → Bool) : goesOn p (rewrittenOf text (scan .plain cs)) = goesOn p cs := by
  cases cs with
  | nil => rfl
  | cons c cs =>
    obtain ⟨found, next, hstep⟩ := Scan.exists_step .plain c cs
    rw [hstep.scan_cons]
    cases hstep with
    | opens | keep => rfl
    | colons | start => simp at h

/-- Where the scan of a rewritten query stands: it reads no names. -/
def Mode.rewritten : Mode → Mode
  | .name _ => .plain
  | .plain => .plain
  | .quoted mark => .quoted mark
  | .cast => .cast

/-- No parameter is found in a query once its parameters have been replaced. -/
theorem scan_rewrittenOf (h : ∀ name, ∀ c ∈ text name, isQuote c = false ∧ c ≠ ':') (mode : Mode)
    (cs : List Char) :
    scan mode.rewritten (rewrittenOf text (scan mode cs)) =
      (rewrittenOf text (scan mode cs)).map .char := by
  induction cs generalizing mode with
  | nil => cases mode <;> rfl
  | cons c cs ih =>
    obtain ⟨found, next, hstep⟩ := Scan.exists_step mode c cs
    have hnext := ih next
    -- a character that stays is read as before, if what its step looks at is still there
    have kept (hfound : found = [.char c])
        (hout : Scan.Step mode.rewritten c (rewrittenOf text (scan next cs)) [.char c]
          next.rewritten) :
        scan mode.rewritten (rewrittenOf text (found ++ scan next cs)) =
          (rewrittenOf text (found ++ scan next cs)).map .char := by
      subst hfound
      change scan _ (c :: rewrittenOf text (scan next cs)) = _
      rw [hout.scan_cons, hnext]
      rfl
    rw [hstep.scan_cons]
    cases hstep with
    | opens hquote => exact kept rfl (.opens hquote)
    | colons hafter =>
      refine kept rfl (.colons ?_)
      cases cs with
      | nil => cases hafter
      | cons c cs => exact hafter
    | start hafter => exact hnext
    | keep hquote hcolon =>
      refine kept rfl (.keep hquote fun hc => ?_)
      obtain ⟨hcolons, hname⟩ := hcolon hc
      exact ⟨(goesOn_rewrittenOf hcolons _).trans hcolons,
        (goesOn_rewrittenOf hcolons _).trans hname⟩
    | closes => exact kept rfl .closes
    | inside hmark => exact kept rfl (.inside hmark)
    | cast => exact kept rfl .cast
    | more hafter => exact hnext
    | @last read _ _ hafter =>
      change scan .plain (text (read ++ [c]) ++ rewrittenOf text (scan .plain cs)) = _
      have hplain : scan .plain (rewrittenOf text (scan .plain cs)) = _ := hnext
      rw [scan_plain_append (h _), hplain, ← List.map_append]
      rfl

end Rewritten

end DaoGen.Sql
