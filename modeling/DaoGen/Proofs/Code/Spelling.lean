import DaoGen.Proofs.Code.Ending

/-!
# Tokens read from their text

Text that is put together from words, marks and brackets is read as the tokens it was put together
from. Only whether a mark is joint with what follows it depends on the text around: `Spell` relates
the pieces of a text to tokens that differ from theirs in this, except that the marks of one
operator stay together. Text that `textOf` writes has blanks between its tokens, so that they are
read as they are, up to a mark at its end.

## Main definitions

* `Piece`: tokens, and groups with pieces inside.
* `Spell`: tokens up to marks that are joint with the next token for no reason of their own; a colon
  does not become joint with another one.
* `Spells`: what a piece of a text is read as, whatever stands after it.
* `ArePlain`: tokens that can be read from their text.

## Main results

* `Spells.lex_eq`: the token trees of a text.
* `spells_textOf`: tokens are read from the text that `textOf` writes.
-/
namespace DaoGen.Code

open Text

/-! ## Tokens up to joints -/

/-- A piece of a text: a token, or a group whose inside is put together from pieces. A group that is
a token is read as it is. -/
inductive Piece where
  | token (t : Token)
  | group (d : Delimiter) (content : List Piece)

mutual

/-- The token that a piece is written as. -/
def Piece.toToken : Piece → Token
  | .token t => t
  | .group d content => .group d (toTokens content)

def toTokens : List Piece → List Token
  | [] => []
  | p :: ps => p.toToken :: toTokens ps

end

theorem toTokens_append (ps qs : List Piece) :
    toTokens (ps ++ qs) = toTokens ps ++ toTokens qs := by
  induction ps with
  | nil => rfl
  | cons p ps ih => rw [List.cons_append, toTokens, toTokens, ih, List.cons_append]

def Token.isColon : Token → Bool
  | .punct ch _ => ch == ':'
  | _ => false

def Piece.isColon : Piece → Bool
  | .token t => t.isColon
  | .group _ _ => false

/-- Whether a token is another one, up to a mark that need not be joint. -/
def Token.Spell : Token → Token → Prop
  | .ident text line, u => u = .ident text line
  | .lifetime name, u => u = .lifetime name
  | .punct ch joint, u => ∃ joint', (joint = true → joint' = true) ∧ u = .punct ch joint'
  | .literal text, u => u = .literal text
  | .group d content, u => u = .group d content

mutual

/-- Whether a token can be read from a piece. -/
def Piece.Spell : Piece → Token → Prop
  | .token t, u => t.Spell u
  | .group d content, u => ∃ content', Spell content content' ∧ u = .group d content'

/-- Whether tokens can be read from pieces: marks that need not be joint may be so. Two colons that
are no operator stay apart. -/
def Spell : List Piece → List Token → Prop
  | [], us => us = []
  | p :: ps, us => ∃ u us', p.Spell u ∧
    (p.isColon = true → ps.head?.any Piece.isColon = true → p = .token u) ∧ Spell ps us' ∧
      us = u :: us'

end

theorem Token.spell_refl (t : Token) : t.Spell t := by
  cases t with
  | ident | lifetime | literal | group => exact rfl
  | punct ch joint => exact ⟨joint, id, rfl⟩

mutual

theorem Piece.spell_refl (p : Piece) : p.Spell p.toToken := by
  match p with
  | .token t => exact t.spell_refl
  | .group d content => exact ⟨toTokens content, Code.spell_refl content, rfl⟩

theorem spell_refl (ps : List Piece) : Spell ps (toTokens ps) := by
  match ps with
  | [] => exact rfl
  | p :: ps =>
    refine ⟨p.toToken, toTokens ps, p.spell_refl, fun hp _ => ?_, Code.spell_refl ps, rfl⟩
    cases p with
    | token t => rfl
    | group d content => cases hp

end

/-- Tokens as they are can be read from any pieces of them. -/
theorem spell_of_toTokens {ps : List Piece} {us : List Token}
    (h : Spell ((toTokens ps).map .token) us) : Spell ps us := by
  induction ps generalizing us with
  | nil => exact h
  | cons p ps ih =>
    obtain ⟨u, us, hu, hcolon, hlater, rfl⟩ := h
    refine ⟨u, us, ?_, fun hp hps => ?_, ih hlater, rfl⟩
    · cases p with
      | token t => exact hu
      | group d content => exact ⟨toTokens content, spell_refl content, hu⟩
    · cases p with
      | group d content => cases hp
      | token t =>
        refine hcolon hp ?_
        cases ps with
        | nil => cases hps
        | cons next ps =>
          cases next with
          | group d content => cases hps
          | token t => exact hps

section Spell

attribute [grind =] Spell Piece.Spell Token.Spell

variable {ps : List Piece} {us : List Token}

@[simp] theorem spell_nil : Spell [] us ↔ us = [] := Iff.rfl

@[simp] theorem spell_ident {text : String} {line : Nat} :
    Spell (.token (.ident text line) :: ps) us ↔
      ∃ later, Spell ps later ∧ us = .ident text line :: later := by
  simp [Spell, Piece.Spell, Token.Spell, Piece.isColon, Token.isColon]

@[simp] theorem spell_lifetime {name : String} :
    Spell (.token (.lifetime name) :: ps) us ↔
      ∃ later, Spell ps later ∧ us = .lifetime name :: later := by
  simp [Spell, Piece.Spell, Token.Spell, Piece.isColon, Token.isColon]

@[simp] theorem spell_literal {text : String} :
    Spell (.token (.literal text) :: ps) us ↔
      ∃ later, Spell ps later ∧ us = .literal text :: later := by
  simp [Spell, Piece.Spell, Token.Spell, Piece.isColon, Token.isColon]

/-- A mark may be joint with what follows it. -/
@[simp] theorem spell_mark {c : Char} (hc : c ≠ ':') :
    Spell (.token (.punct c) :: ps) us ↔
      ∃ joint later, Spell ps later ∧ us = .punct c joint :: later := by
  have hplain : Piece.isColon (.token (.punct c)) = false := by
    simpa [Piece.isColon, Token.isColon] using hc
  simp only [Spell, Piece.Spell, Token.Spell, hplain, Bool.false_eq_true, false_imp_iff, true_and]
  constructor
  · rintro ⟨_, later, ⟨joint, rfl⟩, h, rfl⟩
    exact ⟨joint, later, h, rfl⟩
  · rintro ⟨joint, later, h, rfl⟩
    exact ⟨_, later, ⟨joint, rfl⟩, h, rfl⟩

/-- A colon may be joint with anything but another colon. -/
@[simp] theorem spell_colon :
    Spell (.token (.punct ':') :: ps) us ↔ ∃ joint later,
      (ps.head?.any Piece.isColon = true → joint = false) ∧ Spell ps later ∧
        us = .punct ':' joint :: later := by
  simp only [Spell, Piece.Spell, Token.Spell, Piece.isColon, Token.isColon, beq_self_eq_true,
    true_imp_iff]
  constructor
  · rintro ⟨_, later, ⟨joint, _, rfl⟩, hcolon, h, rfl⟩
    exact ⟨joint, later, fun hps => by simpa using (hcolon hps).symm, h, rfl⟩
  · rintro ⟨joint, later, hcolon, h, rfl⟩
    refine ⟨_, later, ⟨joint, fun h => absurd h Bool.false_ne_true, rfl⟩, fun hps => ?_, h, rfl⟩
    rw [hcolon hps]

/-- A mark that has to be joint stays so. -/
@[simp] theorem spell_joint {c : Char} :
    Spell (.token (.punct c true) :: ps) us ↔
      ∃ later, Spell ps later ∧ us = .punct c true :: later := by
  simp [Spell, Piece.Spell, Token.Spell]

@[simp] theorem spell_group {d : Delimiter} {content : List Piece} :
    Spell (.group d content :: ps) us ↔
      ∃ inside later, Spell content inside ∧ Spell ps later ∧ us = .group d inside :: later := by
  simp only [Spell, Piece.Spell, Piece.isColon, Bool.false_eq_true, false_imp_iff, true_and]
  constructor
  · rintro ⟨_, later, ⟨inside, hinside, rfl⟩, h, rfl⟩
    exact ⟨inside, later, hinside, h, rfl⟩
  · rintro ⟨inside, later, hinside, h, rfl⟩
    exact ⟨_, later, ⟨inside, hinside, rfl⟩, h, rfl⟩

/-- A group that is a token is read as it is. -/
@[simp] theorem spell_kept {d : Delimiter} {content : List Token} :
    Spell (.token (.group d content) :: ps) us ↔
      ∃ later, Spell ps later ∧ us = .group d content :: later := by
  simp [Spell, Piece.Spell, Token.Spell, Piece.isColon, Token.isColon]

end Spell

/-- Sequences of pieces are spelled one after the other. -/
theorem exists_of_spell_append {ps ps' : List Piece} {us : List Token} (h : Spell (ps ++ ps') us) :
    ∃ vs vs', Spell ps vs ∧ Spell ps' vs' ∧ us = vs ++ vs' := by
  induction ps generalizing us with
  | nil => exact ⟨[], us, rfl, h, rfl⟩
  | cons p ps ih =>
    obtain ⟨u, _, hu, hcolon, hlater, rfl⟩ := h
    obtain ⟨vs, vs', hvs, hvs', rfl⟩ := ih hlater
    refine ⟨u :: vs, vs', ⟨u, vs, hu, fun hp hps => hcolon hp ?_, hvs, rfl⟩, hvs', rfl⟩
    cases ps with
    | nil => cases hps
    | cons next ps => exact hps

/-- Sequences of pieces can be put together where no colon follows. -/
theorem spell_append {ps ps' : List Piece} {vs vs' : List Token} (h : Spell ps vs)
    (h' : Spell ps' vs') (hcolon : ps'.head?.any Piece.isColon = false) :
    Spell (ps ++ ps') (vs ++ vs') := by
  induction ps generalizing vs with
  | nil =>
    obtain rfl := h
    exact h'
  | cons p ps ih =>
    obtain ⟨u, vs, hu, hapart, hvs, rfl⟩ := h
    refine ⟨u, vs ++ vs', hu, fun hp hps => hapart hp ?_, ih hvs, rfl⟩
    cases ps with
    | nil => exact absurd hps (by simp [hcolon])
    | cons next ps => exact hps

/-! ## Lexemes of tokens -/

mutual

/-- The lexemes of a token tree. -/
def Token.lexemes : Token → List Lexeme
  | .ident text line => [.token (.ident text line)]
  | .lifetime name => [.token (.lifetime name)]
  | .punct ch joint => [.token (.punct ch joint)]
  | .literal text => [.token (.literal text)]
  | .group d content => .opening d :: (lexemesOf content ++ [.closing d])

/-- The lexemes of token trees. -/
def lexemesOf : List Token → List Lexeme
  | [] => []
  | t :: rest => t.lexemes ++ lexemesOf rest

end

attribute [grind =] Token.lexemes lexemesOf

theorem lexemesOf_append (ts us : List Token) :
    lexemesOf (ts ++ us) = lexemesOf ts ++ lexemesOf us := by
  induction ts with
  | nil => rfl
  | cons t ts ih => simp [lexemesOf, ih]

mutual

theorem nest_lexemes (t : Token) (stack : List (Delimiter × List Token)) (done : List Token)
    (rest : List Lexeme) : nest stack done (t.lexemes ++ rest) = nest stack (t :: done) rest := by
  match t with
  | .ident _ _ | .lifetime _ | .punct _ _ | .literal _ => simp [Token.lexemes, nest]
  | .group d content =>
    simp [Token.lexemes, nest, nest_lexemesOf content]

/-- The lexemes of trees are nested to these trees. -/
theorem nest_lexemesOf (ts : List Token) (stack : List (Delimiter × List Token))
    (done : List Token) (rest : List Lexeme) :
    nest stack done (lexemesOf ts ++ rest) = nest stack (ts.reverse ++ done) rest := by
  match ts with
  | [] => rfl
  | t :: ts =>
    simp [lexemesOf, nest_lexemes t, nest_lexemesOf ts]

end

/-! ## Lexemes of a line -/

/-- A text of one line has the given lexemes. -/
def Lexes (cs : List Char) (found : List Lexeme) : Prop :=
  '\n' ∉ cs ∧ ∀ fuel, cs.length < fuel → lexemes 1 fuel cs = some found

theorem Lexes.nil : Lexes [] [] := by
  refine ⟨nofun, fun fuel hfuel => ?_⟩
  obtain ⟨fuel, rfl⟩ := Nat.exists_eq_add_of_lt hfuel
  simp [lexemes]

theorem Lexes.cons {c : Char} {tail rest : List Char} {found later : List Lexeme}
    (hgap : afterGap (c :: tail) = none)
    (hnext : nextLexemes 1 (c :: tail) = some (found, rest)) (hline : '\n' ∉ c :: tail)
    (hlength : rest.length ≤ tail.length) (h : Lexes rest later) :
    Lexes (c :: tail) (found ++ later) := by
  refine ⟨hline, fun fuel hfuel => ?_⟩
  obtain ⟨fuel, rfl⟩ : ∃ more, fuel = more + 1 :=
    Nat.exists_eq_succ_of_ne_zero (by rintro rfl; simp at hfuel)
  have hlater := h.2 fuel (by simp at hfuel; omega)
  have hcount : (c :: tail).count '\n' = 0 := List.count_eq_zero.mpr hline
  simp [lexemes, skipGaps_of_afterGap hgap, hcount, hnext, hlater]

theorem Lexes.blank {cs : List Char} {found : List Lexeme} (h : Lexes cs found) :
    Lexes (' ' :: cs) found := by
  refine ⟨by simpa using h.1, fun fuel hfuel => ?_⟩
  obtain ⟨fuel, rfl⟩ : ∃ more, fuel = more + 1 :=
    Nat.exists_eq_succ_of_ne_zero (by rintro rfl; simp at hfuel)
  have hgap : afterGap (' ' :: cs) = some cs := by
    rw [afterGap_char (by simp [startsDoc]) (by simp) (by simp)]
    rfl
  have hsame := h.2 (fuel + 1) (by simp at hfuel; omega)
  rw [lexemes, List.length_cons, skipGaps_succ, hgap]
  rw [lexemes] at hsame
  exact hsame

/-! ## Words -/

/-- A text that is a single identifier, perhaps a raw or a reserved one. -/
def IsWord (text : String) : Prop := identifier text.toList = some (text.toList, [])

instance (text : String) : Decidable (IsWord text) := inferInstanceAs (Decidable (_ = _))

/-- Whether a text begins with a character that can stand after any token. -/
def isFresh : List Char → Bool
  | [] => true
  | c :: _ => [' ', ',', '<', '>', ':', ')', ']', '\x7d'].contains c

theorem isFresh_append {cs rest : List Char} (hcs : isFresh cs = true)
    (hrest : isFresh rest = true) : isFresh (cs ++ rest) = true := by
  cases cs with
  | nil => exact hrest
  | cons c cs => exact hcs

/-- A word does not go on with a fresh character. -/
theorem head_of_isFresh {c : Char} {rest : List Char} (h : isFresh (c :: rest) = true) :
    isIdentifierContinue c = false ∧ c ≠ '#' ∧ c ≠ '\'' ∧ c ≠ '"' := by
  have hall : [' ', ',', '<', '>', ':', ')', ']', '\x7d'].all (fun c =>
      isIdentifierContinue c = false ∧ c ≠ '#' ∧ c ≠ '\'' ∧ c ≠ '"') = true := by decide
  simpa using List.all_eq_true.mp hall c (List.contains_iff_mem.mp h)

/-- The beginnings of literals have a mark after letters, and two of them if it is `#` after `r`. -/
theorem mark_of_startsLiteral {cs : List Char} (h : startsLiteral cs = true) :
    (∃ mark later, cs.tail.dropWhile isIdentifierContinue = mark :: later ∧
      (mark = '#' ∨ mark = '\'' ∨ mark = '"')) ∧
    ∀ rest, cs = 'r' :: '#' :: rest →
      ∃ c later, rest = c :: later ∧ isIdentifierStart c = false := by
  have hr : isIdentifierContinue 'r' = true := by decide
  have hhash : isIdentifierContinue '#' = false := by decide
  have hquote : isIdentifierContinue '\'' = false := by decide
  have hdouble : isIdentifierContinue '"' = false := by decide
  have hhash' : isIdentifierStart '#' = false := by decide
  have hdouble' : isIdentifierStart '"' = false := by decide
  obtain ⟨start, hstart, hprefix⟩ := List.any_eq_true.mp h
  obtain ⟨tail, rfl⟩ := List.isPrefixOf_iff_prefix.mp hprefix
  simp only [List.mem_cons, List.not_mem_nil, or_false] at hstart
  rcases hstart with rfl | rfl | rfl | rfl | rfl | rfl | rfl | rfl | rfl | rfl <;>
    simp [List.dropWhile, hr, hhash, hquote, hdouble, hhash', hdouble']

theorem plainIdentifier_cons {c : Char} {tail : List Char} (hc : isIdentifierStart c = true)
    (htail : ∀ d ∈ tail, isIdentifierContinue d = true) :
    plainIdentifier (c :: tail) = some (c :: tail, []) := by
  simp only [plainIdentifier, hc, if_true, List.takeWhile_eq_self_iff.mpr htail,
    List.dropWhile_eq_nil_iff.mpr htail]

theorem plainIdentifier_eq_self {cs : List Char} (h : plainIdentifier cs = some (cs, [])) :
    ∃ c tail, cs = c :: tail ∧ isIdentifierStart c = true ∧
      ∀ d ∈ tail, isIdentifierContinue d = true := by
  cases cs with
  | nil => cases h
  | cons c tail =>
    rw [plainIdentifier] at h
    split at h
    · next hc =>
      refine ⟨c, tail, rfl, hc, List.dropWhile_eq_nil_iff.mp ?_⟩
      simp only [Option.some.injEq, Prod.mk.injEq] at h
      exact h.2
    · cases h

/-- A plain identifier is text of the form of one. -/
theorem plainIdentifier_eq_self_iff {cs : List Char} :
    plainIdentifier cs = some (cs, []) ↔ isIdentifierText cs = true := by
  constructor
  · intro h
    obtain ⟨c, tail, rfl, hc, htail⟩ := plainIdentifier_eq_self h
    rw [isIdentifierText, hc, Bool.true_and, List.all_eq_true]
    exact htail
  · intro h
    cases cs with
    | nil => cases h
    | cons c tail =>
      rw [isIdentifierText, Bool.and_eq_true, List.all_eq_true] at h
      exact plainIdentifier_cons h.1 h.2

/-- The mark of raw identifiers is in no plain identifier. -/
theorem hash_notMem_of_plainIdentifier {cs : List Char} (h : plainIdentifier cs = some (cs, [])) :
    '#' ∉ cs := by
  obtain ⟨c, tail, rfl, hstart, htail⟩ := plainIdentifier_eq_self h
  rintro (_ | ⟨_, hmem⟩)
  · exact absurd hstart (by decide)
  · exact absurd (htail _ hmem) (by decide)

theorem identifier_of_plainIdentifier {cs : List Char} (h : plainIdentifier cs = some (cs, [])) :
    identifier cs = some (cs, []) := by
  rw [identifier_plain, h]
  rintro rest rfl
  exact hash_notMem_of_plainIdentifier h (by simp)

/-- What is no part of a word ends the word before it. -/
theorem plainIdentifier_append_fresh {cs rest : List Char}
    (h : plainIdentifier cs = some (cs, [])) (hrest : isFresh rest = true) :
    plainIdentifier (cs ++ rest) = some (cs, rest) := by
  obtain ⟨c, tail, rfl, hc, htail⟩ := plainIdentifier_eq_self h
  have hword : (tail ++ rest).takeWhile isIdentifierContinue = tail ∧
      (tail ++ rest).dropWhile isIdentifierContinue = rest := by
    rw [List.takeWhile_append_of_pos htail, List.dropWhile_append_of_pos htail]
    cases rest with
    | nil => simp
    | cons d rest => simp [(head_of_isFresh hrest).1]
  simp [plainIdentifier, hc, hword]

/-- An identifier is a plain one, or one after the mark of raw identifiers. -/
theorem identifier_eq_self {cs : List Char} (h : identifier cs = some (cs, [])) :
    (∀ rest, cs ≠ 'r' :: '#' :: rest) ∧ plainIdentifier cs = some (cs, []) ∨
      ∃ word, cs = 'r' :: '#' :: word ∧ plainIdentifier word = some (word, []) ∧
        neverRaw.contains (String.ofList word) = false := by
  by_cases hraw : ∃ word, cs = 'r' :: '#' :: word
  · obtain ⟨word, rfl⟩ := hraw
    rw [identifier_raw] at h
    obtain ⟨⟨name, rest⟩, hname, h⟩ := Option.bind_eq_some_iff.mp h
    split at h
    · cases h
    · next hnever =>
      cases h
      exact .inr ⟨_, rfl, hname, by simpa using hnever⟩
  · have hplain : ∀ rest, cs ≠ 'r' :: '#' :: rest := fun rest heq => hraw ⟨rest, heq⟩
    exact .inl ⟨hplain, identifier_plain hplain ▸ h⟩

/-- An identifier ends before a fresh character. -/
theorem identifier_append_fresh {cs rest : List Char} (h : identifier cs = some (cs, []))
    (hrest : isFresh rest = true) : identifier (cs ++ rest) = some (cs, rest) := by
  rcases identifier_eq_self h with ⟨hraw, hplain⟩ | ⟨word, rfl, hplain, hnever⟩
  · rw [identifier_plain, plainIdentifier_append_fresh hplain hrest]
    obtain ⟨c, tail, rfl, _, htail⟩ := plainIdentifier_eq_self hplain
    intro later heq
    obtain ⟨rfl, hmark⟩ : c = 'r' ∧ tail ++ rest = '#' :: later := by simpa using heq
    cases tail with
    | nil =>
      obtain rfl : rest = '#' :: later := hmark
      exact (head_of_isFresh hrest).2.1 rfl
    | cons d tail =>
      obtain ⟨rfl, _⟩ : d = '#' ∧ tail ++ rest = later := by simpa using hmark
      exact hraw tail rfl
  · change identifier ('r' :: '#' :: (word ++ rest)) = _
    rw [identifier_raw, plainIdentifier_append_fresh hplain hrest, Option.bind_some, hnever]
    rfl

/-- A literal does not begin with an identifier and a fresh character. -/
theorem startsLiteral_append_fresh {cs rest : List Char} (h : identifier cs = some (cs, []))
    (hrest : isFresh rest = true) : startsLiteral (cs ++ rest) = false := by
  rw [Bool.eq_false_iff]
  intro hliteral
  obtain ⟨⟨mark, later, hword, hmark⟩, hraw⟩ := mark_of_startsLiteral hliteral
  rcases identifier_eq_self h with ⟨_, hplain⟩ | ⟨word, rfl, hplain, _⟩
  · obtain ⟨c, tail, rfl, _, htail⟩ := plainIdentifier_eq_self hplain
    rw [List.cons_append, List.tail_cons, List.dropWhile_append_of_pos htail] at hword
    cases rest with
    | nil => cases hword
    | cons d rest =>
      obtain ⟨hd, hhash, hquote, hdouble⟩ := head_of_isFresh hrest
      rw [List.dropWhile_cons_of_neg (by simp [hd])] at hword
      obtain ⟨rfl, rfl⟩ := List.cons.inj hword
      rcases hmark with rfl | rfl | rfl <;> contradiction
  · obtain ⟨c, tail, rfl, hc, _⟩ := plainIdentifier_eq_self hplain
    obtain ⟨d, later, heq, hd⟩ := hraw _ rfl
    obtain ⟨rfl, _⟩ := List.cons.inj heq
    rw [hc] at hd
    cases hd

/-- A character that is in no identifier is in a word only as the mark of raw ones. -/
theorem notMem_of_isWord {text : String} (h : IsWord text) {c : Char}
    (hstart : isIdentifierStart c = false) (hcontinue : isIdentifierContinue c = false)
    (hmark : c ≠ '#') : c ∉ text.toList := by
  have hplain {cs : List Char} (h : plainIdentifier cs = some (cs, [])) : c ∉ cs := by
    obtain ⟨d, tail, rfl, hd, htail⟩ := plainIdentifier_eq_self h
    intro hmem
    rcases List.mem_cons.mp hmem with rfl | hmem
    · rw [hd] at hstart
      cases hstart
    · rw [htail _ hmem] at hcontinue
      cases hcontinue
  rcases identifier_eq_self h with ⟨_, h⟩ | ⟨word, heq, h, _⟩
  · exact hplain h
  · have hr : c ≠ 'r' := by
      rintro rfl
      exact absurd hcontinue (by decide)
    simp [heq, hr, hmark, hplain h]

theorem newline_notMem_of_isWord {text : String} (h : IsWord text) : '\n' ∉ text.toList :=
  notMem_of_isWord h (by decide) (by decide) (by decide)

theorem Lexes.word {text : String} {rest : List Char} {found : List Lexeme} (hword : IsWord text)
    (hrest : isFresh rest = true) (h : Lexes rest found) :
    Lexes (text.toList ++ rest) (.token (.ident text 1) :: found) := by
  have hnext := nextLexemes_of_identifier (startsLiteral_append_fresh hword hrest)
    (identifier_append_fresh hword hrest) 1
  have hline : '\n' ∉ text.toList ++ rest := by
    rw [List.mem_append, not_or]
    exact ⟨newline_notMem_of_isWord hword, h.1⟩
  obtain ⟨c, tail, htext, hc⟩ := isIdentifierStart_of_identifier hword
  have hslash := ne_of_isIdentifierStart hc (d := '/') (by decide)
  rw [String.ofList_toList] at hnext
  rw [htext] at hnext hline ⊢
  refine Lexes.cons ?_ hnext hline (by simp) h
  change afterGap (c :: (tail ++ rest)) = none
  rw [afterGap_char (startsDoc_of_isIdentifierStart hc _) (fun _ h => absurd h hslash)
    (fun _ h => absurd h hslash), not_isGap_of_isIdentifierStart hc]
  rfl

/-! ## Marks -/

/-- Punctuation that begins no comment and no lifetime, whatever follows it. -/
def plainMarks : List Char :=
  ['~', '!', '@', '#', '$', '%', '^', '&', '*', '-', '=', '+', '|', ';', ':', ',', '<', '.', '>',
    '?']

theorem startsPunct_mark {c : Char} (hc : c ∈ plainMarks) (tail : List Char) :
    startsPunct (c :: tail) = true := by
  simp only [plainMarks, List.mem_cons, List.not_mem_nil, or_false] at hc
  rcases hc with rfl | rfl | rfl | rfl | rfl | rfl | rfl | rfl | rfl | rfl | rfl | rfl | rfl | rfl |
    rfl | rfl | rfl | rfl | rfl | rfl <;> rfl

/-- Text goes on after a slash without a comment if it is punctuation. -/
theorem startsPunct_slash_iff {tail : List Char} :
    startsPunct ('/' :: tail) = true ↔ tail.head? ≠ some '/' ∧ tail.head? ≠ some '*' := by
  have hmark : "~!@#$%^&*-=+|;:,<.>/?'".toList.contains '/' = true := by decide
  match tail with
  | [] => simp [startsPunct]
  | c :: tail =>
    by_cases hslash : c = '/'
    · simp [startsPunct, hslash]
    · by_cases hstar : c = '*'
      · simp [startsPunct, hstar]
      · simp [startsPunct, hslash, hstar]

/-- Punctuation begins no comment and no literal. -/
theorem nextLexemes_mark {c : Char} {tail : List Char} (hc : c ∈ plainMarks ∨ c = '/')
    (h : startsPunct (c :: tail) = true) (line : Nat) :
    afterGap (c :: tail) = none ∧
      nextLexemes line (c :: tail) = some ([.token (.punct c (startsPunct tail))], tail) := by
  rcases hc with hc | rfl
  · simp only [plainMarks, List.mem_cons, List.not_mem_nil, or_false] at hc
    rcases hc with rfl | rfl | rfl | rfl | rfl | rfl | rfl | rfl | rfl | rfl | rfl | rfl | rfl |
      rfl | rfl | rfl | rfl | rfl | rfl | rfl <;> exact ⟨rfl, rfl⟩
  · obtain ⟨hslash, hstar⟩ := startsPunct_slash_iff.mp h
    have hdoc : startsDoc ('/' :: tail) = false := by
      cases tail with
      | nil => rfl
      | cons d tail =>
        exact startsDoc_other tail fun _ => ⟨by simpa using hslash, by simpa using hstar⟩
    have hcomment : docComment ('/' :: tail) = none := by simp [docComment, hdoc]
    have hliteral : anyLiteral ('/' :: tail) = none := rfl
    refine ⟨?_, by simp [nextLexemes, hcomment, opens?, closes?, hliteral, h]⟩
    rw [afterGap_char hdoc (fun _ _ => ?_) (fun _ _ => ?_)]
    · rfl
    · rintro rfl
      exact hslash rfl
    · rintro rfl
      exact hstar rfl

theorem newline_notMem_plainMarks : '\n' ∉ plainMarks := by decide

theorem Lexes.mark {c : Char} {rest : List Char} {found : List Lexeme}
    (hc : c ∈ plainMarks ∨ c = '/') (hstart : startsPunct (c :: rest) = true)
    (h : Lexes rest found) :
    Lexes (c :: rest) (.token (.punct c (startsPunct rest)) :: found) := by
  obtain ⟨hgap, hnext⟩ := nextLexemes_mark hc hstart 1
  refine Lexes.cons hgap hnext ?_ (Nat.le_refl _) h
  have hline : '\n' ≠ c := by
    rintro rfl
    rcases hc with hc | hc
    · exact newline_notMem_plainMarks hc
    · exact absurd hc (by decide)
  simp [hline, h.1]

/-! ## Literals -/

/-- Whether a text is read as a single literal, whatever stands after it. -/
def IsLiteral (text : String) : Prop :=
  '\n' ∉ text.toList ∧ ∀ rest, isFresh rest = true → afterGap (text.toList ++ rest) = none ∧
    nextLexemes 1 (text.toList ++ rest) = some ([.token (.literal text)], rest)

/-- A slash begins no literal. -/
theorem nextLexemes_slash {line : Nat} {text : String} {tail rest : List Char} :
    nextLexemes line ('/' :: tail) ≠ some ([.token (.literal text)], rest) := by
  intro h
  have hliteral : anyLiteral ('/' :: tail) = none := rfl
  have hidentifier : identifier ('/' :: tail) = none := rfl
  unfold nextLexemes at h
  split at h
  · next text isInner _ _ =>
    split at h
    · cases isInner <;> simp [docLexemes] at h
    · cases h
  · cases hpunct : startsPunct ('/' :: tail) <;>
      simp [opens?, closes?, hliteral, hpunct, hidentifier] at h

/-- A literal begins with no slash and no square bracket. -/
theorem IsLiteral.exists_cons {text : String} (h : IsLiteral text) :
    ∃ c tail, text.toList = c :: tail ∧ c ≠ '/' ∧ c ≠ '[' := by
  obtain ⟨hgap, hnext⟩ := h.2 [] rfl
  rw [List.append_nil] at hgap hnext
  cases htext : text.toList with
  | nil =>
    rw [htext] at hnext
    cases hnext
  | cons c tail =>
    rw [htext] at hgap hnext
    refine ⟨c, tail, rfl, ?_, ?_⟩
    · rintro rfl
      exact nextLexemes_slash hnext
    · rintro rfl
      cases hnext

theorem Lexes.literal {text : String} {rest : List Char} {found : List Lexeme}
    (hliteral : IsLiteral text) (hrest : isFresh rest = true) (h : Lexes rest found) :
    Lexes (text.toList ++ rest) (.token (.literal text) :: found) := by
  obtain ⟨hgap, hnext⟩ := hliteral.2 rest hrest
  have hline : '\n' ∉ text.toList ++ rest := by
    rw [List.mem_append, not_or]
    exact ⟨hliteral.1, h.1⟩
  obtain ⟨c, tail, htext, _⟩ := hliteral.exists_cons
  rw [htext] at hgap hnext hline ⊢
  exact Lexes.cons hgap hnext hline (by simp) h

/-! ## Lifetimes -/

/-- After its first character a word does not go on with a quote. -/
theorem tail_ne_quote {cs rest : List Char} (h : identifier cs = some (cs, []))
    (hrest : isFresh rest = true) (later : List Char) :
    (cs ++ rest).tail ≠ '\'' :: later := by
  have hquote : isIdentifierContinue '\'' = false := by decide
  rcases identifier_eq_self h with ⟨_, hplain⟩ | ⟨word, rfl, _⟩
  · obtain ⟨c, tail, rfl, _, htail⟩ := plainIdentifier_eq_self hplain
    rw [List.cons_append, List.tail_cons]
    intro heq
    cases tail with
    | nil =>
      obtain rfl : rest = '\'' :: later := heq
      exact (head_of_isFresh hrest).2.2.1 rfl
    | cons d tail =>
      obtain ⟨rfl, _⟩ : d = '\'' ∧ tail ++ rest = later := by simpa using heq
      rw [htail _ List.mem_cons_self] at hquote
      cases hquote
  · simp

theorem nextLexemes_lifetime {cs rest : List Char} (h : identifier cs = some (cs, []))
    (hrest : isFresh rest = true) (line : Nat) :
    afterGap ('\'' :: (cs ++ rest)) = none ∧
      nextLexemes line ('\'' :: (cs ++ rest)) =
        some ([.token (.lifetime (String.ofList cs))], rest) := by
  have hliteral := startsLiteral_append_fresh h hrest
  have hname : lifetimeName (cs ++ rest) = some (cs, rest) := by
    rw [lifetimeName, identifier_append_fresh h hrest]
    cases rest with
    | nil => rfl
    | cons d rest =>
      obtain ⟨_, hhash, hquote, _⟩ := head_of_isFresh hrest
      simp [hhash, hquote]
  have htail := tail_ne_quote h hrest
  obtain ⟨c, tail, rfl, hc⟩ := isIdentifierStart_of_identifier h
  have hslash := ne_of_isIdentifierStart hc (d := '\\') (by decide)
  have hplain : anyLiteral (c :: tail ++ rest) = none := anyLiteral_eq_none hc hliteral
  have hcharacter : characterLiteral ('\'' :: c :: (tail ++ rest)) = none := by
    unfold characterLiteral quotedCharacter
    split
    · next heq => exact absurd (List.cons.inj (List.cons.inj heq).2).1 hslash
    · next heq => exact absurd (List.cons.inj (List.cons.inj heq).2).2 (htail _)
    · rfl
  have hnone : anyLiteral ('\'' :: c :: (tail ++ rest)) = none := by
    rw [anyLiteral, hcharacter]
    rfl
  have hpunct : startsPunct ('\'' :: c :: (tail ++ rest)) = true := rfl
  have hdoc : docComment ('\'' :: c :: (tail ++ rest)) = none := rfl
  refine ⟨rfl, ?_⟩
  rw [List.cons_append] at *
  simp [nextLexemes, hdoc, opens?, closes?, hnone, hpunct, hname, hplain, hliteral]

theorem Lexes.lifetime {name : String} {rest : List Char} {found : List Lexeme}
    (hname : IsWord name) (hrest : isFresh rest = true) (h : Lexes rest found) :
    Lexes ('\'' :: (name.toList ++ rest)) (.token (.lifetime name) :: found) := by
  obtain ⟨hgap, hnext⟩ := nextLexemes_lifetime hname hrest 1
  rw [String.ofList_toList] at hnext
  refine Lexes.cons hgap hnext ?_ (by simp) h
  simp [newline_notMem_of_isWord hname, h.1]

/-! ## Brackets -/

/-- The characters around a group without the blanks inside. -/
def bracketsOf : Delimiter → Char × Char
  | .paren => ('(', ')')
  | .bracket => ('[', ']')
  | .brace => ('\x7b', '\x7d')

theorem nextLexemes_closing (d : Delimiter) (line : Nat) (tail : List Char) :
    afterGap ((bracketsOf d).2 :: tail) = none ∧
      nextLexemes line ((bracketsOf d).2 :: tail) = some ([.closing d], tail) := by
  cases d <;> exact ⟨rfl, rfl⟩

/-- An opening bracket, unless it begins the text of a broken literal. -/
theorem nextLexemes_opening {d : Delimiter} {tail : List Char}
    (hbroken : startsBroken ((bracketsOf d).1 :: tail) = false) (line : Nat) :
    afterGap ((bracketsOf d).1 :: tail) = none ∧
      nextLexemes line ((bracketsOf d).1 :: tail) = some ([.opening d], tail) := by
  cases d with
  | paren =>
    have hbroken' : startsBroken ('(' :: tail) = false := hbroken
    have hdoc : docComment ('(' :: tail) = none := rfl
    refine ⟨rfl, ?_⟩
    simp [bracketsOf, nextLexemes, opens?, hbroken', hdoc]
  | bracket | brace => exact ⟨rfl, rfl⟩

/-- A literal that is broken goes on with a comment. -/
theorem startsBroken_eq_false {d : Delimiter} {tail : List Char}
    (h : ∀ rest, tail ≠ '/' :: '*' :: rest) : startsBroken ((bracketsOf d).1 :: tail) = false := by
  cases d with
  | bracket | brace => rfl
  | paren =>
    rw [Bool.eq_false_iff]
    intro hbroken
    obtain ⟨rest, heq⟩ := List.isPrefixOf_iff_prefix.mp hbroken
    exact h _ (List.cons.inj heq).2.symm

/-- The end of a group can stand after any token, and is no mark. -/
theorem isFresh_closing (d : Delimiter) (tail : List Char) :
    isFresh ((bracketsOf d).2 :: tail) = true ∧ startsPunct ((bracketsOf d).2 :: tail) = false := by
  cases d <;> exact ⟨rfl, rfl⟩

theorem Lexes.closing {d : Delimiter} {rest : List Char} {found : List Lexeme}
    (h : Lexes rest found) : Lexes ((bracketsOf d).2 :: rest) (.closing d :: found) := by
  obtain ⟨hgap, hnext⟩ := nextLexemes_closing d 1 rest
  have hline : '\n' ≠ (bracketsOf d).2 := by cases d <;> decide
  exact Lexes.cons hgap hnext (by simp [hline, h.1]) (Nat.le_refl _) h

theorem Lexes.opening {d : Delimiter} {rest : List Char} {found : List Lexeme}
    (hbroken : startsBroken ((bracketsOf d).1 :: rest) = false) (h : Lexes rest found) :
    Lexes ((bracketsOf d).1 :: rest) (.opening d :: found) := by
  obtain ⟨hgap, hnext⟩ := nextLexemes_opening hbroken 1
  have hline : '\n' ≠ (bracketsOf d).1 := by cases d <;> decide
  exact Lexes.cons hgap hnext (by simp [hline, h.1]) (Nat.le_refl _) h

/-! ## Pieces of a text -/

/-- A text is read as the given pieces, whatever stands after it. -/
def Spells (cs : List Char) (ps : List Piece) : Prop :=
  ∀ rest found, isFresh rest = true → Lexes rest found →
    ∃ us, Spell ps us ∧ Lexes (cs ++ rest) (lexemesOf us ++ found)

theorem Spells.nil : Spells [] [] := fun _ _ _ h => ⟨[], rfl, h⟩

theorem Spells.append {cs cs' : List Char} {ps ps' : List Piece} (h : Spells cs ps)
    (h' : Spells cs' ps') (hfresh : isFresh cs' = true)
    (hcolon : ps'.head?.any Piece.isColon = false) : Spells (cs ++ cs') (ps ++ ps') := by
  intro rest found hrest hfound
  obtain ⟨us', hus', hlater⟩ := h' rest found hrest hfound
  obtain ⟨us, hus, hall⟩ := h (cs' ++ rest) _ (isFresh_append hfresh hrest) hlater
  refine ⟨us ++ us', spell_append hus hus' hcolon, ?_⟩
  rw [lexemesOf_append, List.append_assoc, List.append_assoc]
  exact hall

theorem Spells.blank {cs : List Char} {ps : List Piece} (h : Spells cs ps) :
    Spells (' ' :: cs) ps := by
  intro rest found hrest hfound
  obtain ⟨us, hus, hall⟩ := h rest found hrest hfound
  exact ⟨us, hus, hall.blank⟩

/-- A piece stands before others if its text is read as it. -/
theorem Spells.cons (cs : List Char) {later : List Char} {p : Piece} {ps : List Piece}
    (h : Spells later ps)
    (hpiece : ∀ rest found, isFresh rest = true → Lexes (later ++ rest) found →
      ∃ u, p.Spell u ∧ (p.isColon = true → ps.head?.any Piece.isColon = true → p = .token u) ∧
        Lexes (cs ++ (later ++ rest)) (u.lexemes ++ found)) :
    Spells (cs ++ later) (p :: ps) := by
  intro rest found hrest hfound
  obtain ⟨us, hus, hlater⟩ := h rest found hrest hfound
  obtain ⟨u, hu, hcolon, hall⟩ := hpiece rest _ hrest hlater
  refine ⟨u :: us, ⟨u, us, hu, hcolon, hus, rfl⟩, ?_⟩
  rw [lexemesOf, List.append_assoc, List.append_assoc]
  exact hall

theorem Spells.word {text : String} {later : List Char} {ps : List Piece} (hword : IsWord text)
    (hfresh : isFresh later = true) (h : Spells later ps) :
    Spells (text.toList ++ later) (.token (.ident text 1) :: ps) :=
  h.cons text.toList fun _ _ hrest hfound =>
    ⟨_, rfl, fun h => absurd h Bool.false_ne_true,
      hfound.word hword (isFresh_append hfresh hrest)⟩

/-- Whether a text begins with plain punctuation. -/
def startsMark (cs : List Char) : Prop := ∃ c ∈ plainMarks, ∃ tail, cs = c :: tail

theorem Spells.mark {c : Char} {joint : Bool} {later : List Char} {ps : List Piece}
    (hc : c ∈ plainMarks) (hjoint : joint = true → startsMark later) (h : Spells later ps)
    (hcolon : c = ':' → joint = false → ps.head?.any Piece.isColon = true →
      later.head? = some ' ') : Spells (c :: later) (.token (.punct c joint) :: ps) := by
  refine Spells.cons [c] h fun rest found hrest hfound => ?_
  refine ⟨.punct c (startsPunct (later ++ rest)), ⟨_, fun hj => ?_, rfl⟩, fun hp hps => ?_,
    hfound.mark (.inl hc) (startsPunct_mark hc _)⟩
  · obtain ⟨d, hd, tail, rfl⟩ := hjoint hj
    exact startsPunct_mark hd _
  · cases joint with
    | true =>
      obtain ⟨d, hd, tail, rfl⟩ := hjoint rfl
      rw [List.cons_append, startsPunct_mark hd]
    | false =>
      have hblank := hcolon (by simpa [Piece.isColon, Token.isColon] using hp) rfl hps
      obtain ⟨tail, rfl⟩ := List.head?_eq_some_iff.mp hblank
      rfl

/-- Pieces between brackets. -/
theorem Spells.group {d : Delimiter} {cs later : List Char} {content ps : List Piece}
    (hbroken : ∀ tail, startsBroken ((bracketsOf d).1 :: (cs ++ (bracketsOf d).2 :: tail)) = false)
    (hcontent : Spells cs content) (h : Spells later ps) :
    Spells ((bracketsOf d).1 :: (cs ++ (bracketsOf d).2 :: later)) (.group d content :: ps) := by
  intro rest found hrest hfound
  obtain ⟨us, hus, hlater⟩ := h rest found hrest hfound
  obtain ⟨vs, hvs, hinside⟩ := hcontent _ _ (isFresh_closing d _).1 (hlater.closing (d := d))
  refine ⟨.group d vs :: us,
    ⟨_, us, ⟨vs, hvs, rfl⟩, fun h => absurd h Bool.false_ne_true, hus, rfl⟩, ?_⟩
  simpa [lexemesOf, Token.lexemes] using hinside.opening (hbroken (later ++ rest))

/-! ## Whole texts -/

/-- No line begins with an order mark. -/
theorem not_lexes_orderMark {tail : List Char} {found : List Lexeme} :
    ¬ Lexes ('\ufeff' :: tail) found := by
  rintro ⟨_, h⟩
  have hgap : afterGap ('\ufeff' :: tail) = none := rfl
  have hstart : isIdentifierStart '\ufeff' = false := by decide +kernel
  have hliteral : anyLiteral ('\ufeff' :: tail) = none := rfl
  have hidentifier : identifier ('\ufeff' :: tail) = none := by
    rw [identifier_plain (by simp), plainIdentifier, hstart]
    rfl
  have hnone (line : Nat) : nextLexemes line ('\ufeff' :: tail) = none := by
    have hdoc : docComment ('\ufeff' :: tail) = none := rfl
    have hpunct : startsPunct ('\ufeff' :: tail) = false := rfl
    simp [nextLexemes, hdoc, opens?, closes?, hliteral, hpunct, hidentifier]
  have hall := h _ (Nat.lt_succ_self _)
  simp [lexemes, skipGaps_of_afterGap hgap, hnone] at hall

/-- The trees of a text that is put together from pieces are spelled by these pieces. -/
theorem Spells.lex_eq {text : String} {ps : List Piece} (h : Spells text.toList ps) :
    ∃ us, Spell ps us ∧ lex text = some us := by
  obtain ⟨us, hus, hall⟩ := h [] [] rfl .nil
  rw [List.append_nil, List.append_nil] at hall
  refine ⟨us, hus, ?_⟩
  have hmark : skipOrderMark text.toList = text.toList := by
    unfold skipOrderMark
    split
    · next heq =>
      rw [heq] at hall
      exact absurd hall not_lexes_orderMark
    · rfl
  have hlexemes := hall.2 (text.toList.length + 1) (Nat.lt_succ_self _)
  have hcount : text.toList.count '\n' = 0 := List.count_eq_zero.mpr hall.1
  have hnest : nest [] [] (lexemesOf us) = some us := by
    simpa [nest] using nest_lexemesOf us [] [] []
  simp [lex, lexChars, hmark, hcount, hlexemes, hnest]

/-! ## Written tokens -/

/-- Whether a mark can be joint with a token after it. A comment begins with two marks that are
not. -/
def joins : Token → Token → Bool
  | .punct c _, .punct d _ =>
    plainMarks.contains d && !(c == '/' && d == '*') || d == '/' && c != '/'
  | .punct _ _, .lifetime _ => true
  | _, _ => false

mutual

/-- Whether a token can be read from its text: a word, a lifetime or a literal, punctuation, or a
group of such tokens. -/
def Token.IsPlain : Token → Prop
  | .ident text line => IsWord text ∧ line = 1
  | .lifetime name => IsWord name
  | .punct ch _ => ch ∈ plainMarks ∨ ch = '/'
  | .literal text => IsLiteral text
  | .group _ content => ArePlain content

/-- Whether tokens can be read from their text. A joint mark stands before what it can be joint
with. -/
def ArePlain : List Token → Prop
  | [] => True
  | t :: rest => t.IsPlain ∧ (t.isJoint = true → rest.head?.any (joins t) = true) ∧ ArePlain rest

end

theorem arePlain_append {ts us : List Token} (hts : ArePlain ts) (hus : ArePlain us) :
    ArePlain (ts ++ us) := by
  induction ts with
  | nil => exact hus
  | cons t ts ih =>
    obtain ⟨ht, hjoint, hts⟩ := hts
    refine ⟨ht, fun h => ?_, ih hts⟩
    cases ts with
    | nil => cases hjoint h
    | cons u ts => exact hjoint h

theorem toList_textOf_cons (t : Token) (rest : List Token) :
    ∃ tail, (textOf (t :: rest)).toList = t.text.toList ++ tail := by
  cases rest with
  | nil => exact ⟨[], by simp⟩
  | cons u rest => exact ⟨_, by rw [textOf, String.toList_append]⟩

/-- The text of plain tokens begins with a slash only if the first token is a mark, and with a
square bracket only if it is a group in such brackets. -/
theorem head_textOf {t : Token} (h : t.IsPlain) (rest : List Token) :
    ∃ c tail, (textOf (t :: rest)).toList = c :: tail ∧ (c = '/' → ∃ joint, t = .punct '/' joint) ∧
      (c = '[' → ∃ content, t = .group .bracket content) := by
  have hfront : ∃ c tail, t.text.toList = c :: tail ∧ (c = '/' → ∃ joint, t = .punct '/' joint) ∧
      (c = '[' → ∃ content, t = .group .bracket content) := by
    cases t with
    | ident text line =>
      obtain ⟨c, tail, htext, hc⟩ := isIdentifierStart_of_identifier h.1
      exact ⟨c, tail, htext, fun heq => absurd heq (ne_of_isIdentifierStart hc (by decide)),
        fun heq => absurd heq (ne_of_isIdentifierStart hc (by decide))⟩
    | lifetime name => exact ⟨'\'', name.toList, by simp [Token.text], by simp, by simp⟩
    | punct ch joint =>
      refine ⟨ch, [], by simp [Token.text], ?_, ?_⟩
      · rintro rfl
        exact ⟨joint, rfl⟩
      · rintro rfl
        exact absurd h (by simp [Token.IsPlain, plainMarks])
    | literal text =>
      obtain ⟨c, tail, htext, hslash, hbracket⟩ := IsLiteral.exists_cons h
      exact ⟨c, tail, htext, fun heq => absurd heq hslash, fun heq => absurd heq hbracket⟩
    | group d content =>
      cases d with
      | paren => exact ⟨'(', _, by simp [Token.text, Delimiter.surround]; rfl, by simp, by simp⟩
      | bracket =>
        exact ⟨'[', _, by simp [Token.text, Delimiter.surround]; rfl, by simp,
          fun _ => ⟨content, rfl⟩⟩
      | brace =>
        refine ⟨'\x7b', ((Token.group .brace content).text.toList).tail, ?_, by simp, by simp⟩
        cases hempty : content.isEmpty <;> simp [Token.text, Delimiter.surround, hempty]
  obtain ⟨c, tail, htext, hc⟩ := hfront
  obtain ⟨later, hlater⟩ := toList_textOf_cons t rest
  exact ⟨c, tail ++ later, by rw [hlater, htext, List.cons_append], hc⟩

/-- A mark is joint with marks and lifetimes. -/
theorem kind_of_joins {t u : Token} (h : joins t u = true) :
    (∃ c joint, u = .punct c joint) ∨ ∃ name, u = .lifetime name := by
  cases u with
  | lifetime name => exact .inr ⟨name, rfl⟩
  | punct d joint => exact .inl ⟨d, joint, rfl⟩
  | ident | literal | group => cases t <;> cases h

/-- The text of tokens after a mark that is joint with them begins as punctuation, and so does the
text with the mark. -/
theorem startsPunct_textOf {t : Token} {rest : List Token} (h : ArePlain (t :: rest))
    (ht : (∃ c joint, t = .punct c joint) ∨ ∃ name, t = .lifetime name) {more : List Char}
    (hmore : isFresh more = true) : startsPunct ((textOf (t :: rest)).toList ++ more) = true := by
  rcases ht with ⟨c, joint, rfl⟩ | ⟨name, rfl⟩
  · have hc : c ∈ plainMarks ∨ c = '/' := h.1
    rcases hc with hc | rfl
    · obtain ⟨tail, htail⟩ := toList_textOf_cons (.punct c joint) rest
      rw [htail]
      simpa [Token.text] using startsPunct_mark hc (tail ++ more)
    · -- what stands after a slash makes it no comment
      cases rest with
      | nil =>
        have hend : startsPunct ('/' :: more) = true := by
          rw [startsPunct_slash_iff]
          cases more with
          | nil => simp
          | cons d more =>
            constructor <;>
            · rintro heq
              obtain rfl := Option.some.inj heq
              cases hmore
        simpa [Token.text] using hend
      | cons u rest =>
        rw [textOf, String.toList_append, String.toList_append, List.append_assoc,
          show (Token.punct '/' joint).text.toList = ['/'] by simp [Token.text],
          List.singleton_append, startsPunct_slash_iff]
        cases joint with
        | false => simp [Token.isJoint]
        | true =>
          obtain ⟨tail, htail⟩ := toList_textOf_cons u rest
          have hjoins : joins (.punct '/' true) u = true := h.2.1 rfl
          simp only [Token.isJoint, if_true, htail]
          cases u with
          | lifetime name => simp [Token.text]
          | punct d joint =>
            have hd : d ∈ plainMarks ∧ d ≠ '*' := by simpa [joins] using hjoins
            have hslash : d ≠ '/' := by
              rintro rfl
              exact absurd hd.1 (by decide)
            simp [Token.text, hd.2, hslash]
          | ident | literal | group => cases hjoins
  · obtain ⟨tail, htail⟩ := toList_textOf_cons (.lifetime name) rest
    rw [htail]
    simp [Token.text, startsPunct]

/-- The characters between the brackets of a group. -/
def insideOf (d : Delimiter) (content : List Token) : List Char :=
  match d with
  | .paren | .bracket => (textOf content).toList
  | .brace => if content.isEmpty then [' '] else ' ' :: ((textOf content).toList ++ [' '])

theorem toList_group (d : Delimiter) (content : List Token) :
    (Token.group d content).text.toList =
      (bracketsOf d).1 :: (insideOf d content ++ [(bracketsOf d).2]) := by
  cases d with
  | paren | bracket => simp [Token.text, Delimiter.surround, bracketsOf, insideOf]
  | brace =>
    cases hempty : content.isEmpty <;>
      simp [Token.text, Delimiter.surround, bracketsOf, insideOf, hempty]

/-- No comment stands between the brackets of a group of plain tokens. -/
theorem startsBroken_insideOf (d : Delimiter) {content : List Token} (h : ArePlain content)
    (tail : List Char) : startsBroken
      ((bracketsOf d).1 :: (insideOf d content ++ (bracketsOf d).2 :: tail)) = false := by
  refine startsBroken_eq_false fun rest heq => ?_
  have hfresh := (isFresh_closing d tail).1
  cases content with
  | nil => cases d <;> simp [insideOf, bracketsOf] at heq
  | cons t content =>
    cases d with
    | brace => simp [insideOf] at heq
    | paren | bracket =>
      obtain ⟨c, later, htext, hslash, -⟩ := head_textOf h.1 content
      have hc : c = '/' := by
        rw [insideOf, htext, List.cons_append] at heq
        exact (List.cons.inj heq).1
      obtain ⟨joint, rfl⟩ := hslash hc
      have hpunct := startsPunct_textOf h (.inl ⟨_, _, rfl⟩) hfresh
      rw [insideOf] at heq
      rw [heq] at hpunct
      cases hpunct

/-! ## Texts of tokens -/

/-- A text is read as the given tokens as they are, up to a mark at its end. -/
def Writes (cs : List Char) (ts : List Token) : Prop :=
  ∀ rest found, isFresh rest = true → Lexes rest found →
    ∃ us, Spell (ts.map .token) us ∧ (startsPunct rest = false → us = ts) ∧
      Lexes (cs ++ rest) (lexemesOf us ++ found)

/-- Between brackets there are no marks at the end. -/
theorem Writes.inside {d : Delimiter} {content : List Token}
    (h : Writes (textOf content).toList content) {rest : List Char} {found : List Lexeme}
    (hfound : Lexes rest found) :
    Lexes (insideOf d content ++ (bracketsOf d).2 :: rest)
      (lexemesOf content ++ .closing d :: found) := by
  have hclosing : Lexes ((bracketsOf d).2 :: rest) (.closing d :: found) := hfound.closing
  cases d with
  | paren | bracket =>
    obtain ⟨us, -, hsame, hall⟩ := h _ _ (isFresh_closing _ rest).1 hclosing
    rwa [hsame (isFresh_closing _ rest).2] at hall
  | brace =>
    cases content with
    | nil => exact hclosing.blank
    | cons t content =>
      obtain ⟨us, -, hsame, hall⟩ := h _ _ rfl hclosing.blank
      rw [hsame rfl] at hall
      simpa [insideOf] using hall.blank

/-- What stands between a token and the next one. -/
def Token.gap (t : Token) : List Char := if t.isJoint then [] else [' ']

theorem Lexes.gap (t : Token) {cs : List Char} {found : List Lexeme} (h : Lexes cs found) :
    Lexes (t.gap ++ cs) found := by
  unfold Token.gap
  split
  · exact h
  · exact h.blank

/-- A token as it is read before the given text. -/
def Token.before (tail : List Char) : Token → Token
  | .punct ch _ => .punct ch (startsPunct tail)
  | t => t

theorem Token.before_eq_self {t : Token} {tail : List Char} (h : startsPunct tail = t.isJoint) :
    t.before tail = t := by
  cases t with
  | punct ch joint => rw [Token.before, h, Token.isJoint]
  | ident | lifetime | literal | group => rfl

mutual

/-- A plain token is read from its text. -/
theorem Token.IsPlain.lexes {t : Token} (h : t.IsPlain) {tail : List Char} {found : List Lexeme}
    (hfresh : isFresh tail = true ∨ ∃ c joint, t = .punct c joint)
    (hmark : ∀ c joint, t = .punct c joint → startsPunct (c :: tail) = true)
    (hfound : Lexes tail found) :
    Lexes (t.text.toList ++ tail) ((t.before tail).lexemes ++ found) := by
  match t with
  | .ident text line =>
    obtain ⟨hword, rfl⟩ := h
    exact hfound.word hword (by simpa using hfresh)
  | .lifetime name =>
    have htext : (Token.lifetime name).text.toList = '\'' :: name.toList := by simp [Token.text]
    rw [htext]
    exact hfound.lifetime h (by simpa using hfresh)
  | .punct ch joint =>
    have htext : (Token.punct ch joint).text.toList = [ch] := by simp [Token.text]
    rw [htext]
    exact hfound.mark h (hmark ch joint rfl)
  | .literal text => exact hfound.literal h (by simpa using hfresh)
  | .group d content =>
    have hinside := (writes_textOf h).inside (d := d) hfound
    have hall := hinside.opening (startsBroken_insideOf d h tail)
    simpa [toList_group, Token.before, Token.lexemes] using hall

/-- Plain tokens are read from their text as they are. -/
theorem writes_textOf {ts : List Token} (h : ArePlain ts) : Writes (textOf ts).toList ts := by
  intro rest found hrest hfound
  match ts with
  | [] => exact ⟨[], rfl, fun _ => rfl, by simpa [lexemesOf] using hfound⟩
  | [t] =>
    have hapart : t.isJoint = false := by
      rw [Bool.eq_false_iff]
      exact fun hj => absurd (h.2.1 hj) (by simp)
    have hmark (c : Char) (joint : Bool) (heq : t = .punct c joint) :
        startsPunct (c :: rest) = true := by
      have hall := startsPunct_textOf h (.inl ⟨c, joint, heq⟩) hrest
      simpa [heq, Token.text] using hall
    refine ⟨[t.before rest], ?_, fun hpunct => ?_, ?_⟩
    · cases t with
      | punct ch joint =>
        obtain rfl : joint = false := hapart
        exact ⟨_, [], ⟨_, fun h => absurd h Bool.false_ne_true, rfl⟩,
          fun _ h => absurd h Bool.false_ne_true, rfl, rfl⟩
      | ident | lifetime | literal | group =>
        exact ⟨_, [], rfl, fun h => absurd h Bool.false_ne_true, rfl, rfl⟩
    · rw [Token.before_eq_self (hpunct.trans hapart.symm)]
    · simpa [lexemesOf] using h.1.lexes (.inl hrest) hmark hfound
  | t :: u :: later =>
    obtain ⟨us, hus, hsame, hall⟩ := writes_textOf h.2.2 rest found hrest hfound
    have htext : (textOf (t :: u :: later)).toList ++ rest =
        t.text.toList ++ (t.gap ++ ((textOf (u :: later)).toList ++ rest)) := by
      rw [textOf, String.toList_append, String.toList_append, Token.gap]
      split <;> simp
    have hpunct : startsPunct (t.gap ++ ((textOf (u :: later)).toList ++ rest)) = t.isJoint := by
      rw [Token.gap]
      cases hj : t.isJoint with
      | false => rfl
      | true => exact startsPunct_textOf h.2.2 (kind_of_joins (by simpa using h.2.1 hj)) hrest
    have hmark (c : Char) (joint : Bool) (heq : t = .punct c joint) :
        startsPunct (c :: (t.gap ++ ((textOf (u :: later)).toList ++ rest))) = true := by
      have hall := startsPunct_textOf h (.inl ⟨c, joint, heq⟩) hrest
      rw [htext] at hall
      simpa [heq, Token.text] using hall
    have hfresh : isFresh (t.gap ++ ((textOf (u :: later)).toList ++ rest)) = true ∨
        ∃ c joint, t = .punct c joint := by
      cases t with
      | punct ch joint => exact .inr ⟨ch, joint, rfl⟩
      | ident | lifetime | literal | group => exact .inl rfl
    have hfront := h.1.lexes hfresh hmark (hall.gap t)
    rw [Token.before_eq_self hpunct] at hfront
    refine ⟨t :: us, ⟨t, us, t.spell_refl, fun _ _ => rfl, hus, rfl⟩, fun hrest => ?_, ?_⟩
    · rw [hsame hrest]
    · rw [htext, lexemesOf, List.append_assoc]
      exact hfront

end

/-- Pieces are read from the text of their tokens. -/
theorem spells_textOf {ps : List Piece} (h : ArePlain (toTokens ps)) :
    Spells (textOf (toTokens ps)).toList ps := fun rest found hrest hfound =>
  have ⟨us, hus, _, hall⟩ := writes_textOf h rest found hrest hfound
  ⟨us, spell_of_toTokens hus, hall⟩

end DaoGen.Code
