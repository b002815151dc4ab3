import DaoGen.Code.ItemSyntax

/-!
# Names read from text

`parseName` reads a name with gaps around it. A text that is an identifier from end to end has no
gaps, so it is the name itself.
-/
namespace DaoGen.Code

open Text

/-- Reserved words are not read as names. -/
theorem notMem_reservedWords_of_parseName {text name : String} (h : parseName text = some name) :
    name ∉ reservedWords := by
  unfold parseName at h
  split at h
  · split at h
    · next hname =>
      cases h
      simpa [isName] using hname
    · cases h
  · cases h

/-! ## First characters -/

/-- The code points of all gaps. -/
def gapCodes : List Nat :=
  [9, 10, 11, 12, 13, 0x20, 0x85, 0xa0, 0x1680, 0x2000, 0x2001, 0x2002, 0x2003, 0x2004, 0x2005,
    0x2006, 0x2007, 0x2008, 0x2009, 0x200a, 0x200e, 0x200f, 0x2028, 0x2029, 0x202f, 0x205f, 0x3000]

theorem toNat_mem_gapCodes {c : Char} (h : isGap c = true) : c.toNat ∈ gapCodes := by
  simp only [isGap, isBlank, Bool.or_eq_true, Bool.and_eq_true, decide_eq_true_eq,
    beq_iff_eq] at h
  simp only [gapCodes, List.mem_cons, List.not_mem_nil, or_false]
  rcases h with (h | rfl) | rfl
  · omega
  · decide
  · decide

theorem not_isIdentifierStart_of_mem_gapCodes :
    ∀ n ∈ gapCodes, isIdentifierStart (Char.ofNat n) = false := by
  decide +kernel

section Start

variable {c : Char} (h : isIdentifierStart c = true)

include h

theorem ne_of_isIdentifierStart {d : Char} (hd : isIdentifierStart d = false) : c ≠ d := by
  rintro rfl
  rw [h] at hd
  cases hd

theorem not_isGap_of_isIdentifierStart : isGap c = false := by
  cases hgap : isGap c with
  | false => rfl
  | true =>
    have hstart := not_isIdentifierStart_of_mem_gapCodes _ (toNat_mem_gapCodes hgap)
    rw [Char.ofNat_toNat, h] at hstart
    cases hstart

/-- A test that needs another first character fails. -/
theorem ne_cons_of_isIdentifierStart {d : Char} (hd : isIdentifierStart d = false)
    (cs ds : List Char) : c :: cs ≠ d :: ds := fun heq =>
  ne_of_isIdentifierStart h hd (List.cons.inj heq).1

theorem startsDoc_of_isIdentifierStart (cs : List Char) : startsDoc (c :: cs) = false := by
  have hslash := ne_cons_of_isIdentifierStart h (d := '/') (by decide) cs
  unfold startsDoc
  split
  case h_8 => rfl
  all_goals
    next heq => exact absurd heq (hslash _)

theorem skipGaps_of_isIdentifierStart (fuel : Nat) (cs : List Char) :
    skipGaps fuel (c :: cs) = c :: cs := by
  have hslash := ne_cons_of_isIdentifierStart h (d := '/') (by decide) cs
  cases fuel with
  | zero => rfl
  | succ fuel =>
    change ite (startsDoc (c :: cs) = true) _ _ = _
    rw [if_neg (by simp [startsDoc_of_isIdentifierStart h])]
    split
    · next heq => exact absurd heq (hslash _)
    · next heq => exact absurd heq (hslash _)
    · next heq =>
      obtain ⟨rfl, rfl⟩ := List.cons.inj heq
      rw [if_neg (by simp [not_isGap_of_isIdentifierStart h])]
    · next heq => cases heq

/-- A text that begins like an identifier begins with a literal, or with an identifier unless it has
one of the beginnings of literals. -/
theorem nextLexemes_eq_of_isIdentifierStart (line : Nat) (cs : List Char) :
    nextLexemes line (c :: cs) =
      match anyLiteral (c :: cs) with
      | some rest =>
        let text := String.ofList ((c :: cs).take ((c :: cs).length - rest.length))
        some ([.token (.literal text)], rest)
      | none =>
        if startsLiteral (c :: cs) then none
        else (identifier (c :: cs)).bind fun (name, rest) =>
          some ([.token (.ident (String.ofList name) line)], rest) := by
  have hdoc : docComment (c :: cs) = none := by
    simp [docComment, startsDoc_of_isIdentifierStart h]
  have hopens : opens? (c :: cs) = none := by
    unfold opens?
    split
    case h_4 => rfl
    all_goals
      next heq => exact absurd heq (ne_cons_of_isIdentifierStart h (by decide) _ _)
  have hcloses : closes? c = none := by
    unfold closes?
    split
    case h_4 => rfl
    all_goals exact absurd rfl (ne_of_isIdentifierStart h (by decide))
  have hpunct : startsPunct (c :: cs) = false := by
    unfold startsPunct
    split
    case h_3 heq =>
      obtain ⟨rfl, rfl⟩ := List.cons.inj heq
      have hmarks : ∀ d ∈ "~!@#$%^&*-=+|;:,<.>/?'".toList, isIdentifierStart d = false := by
        simp [isIdentifierStart]
      rw [List.contains_eq_mem, decide_eq_false_iff_not]
      exact fun hmem => ne_of_isIdentifierStart h (hmarks c hmem) rfl
    all_goals rfl
  unfold nextLexemes
  simp only [hdoc, hopens, hcloses, hpunct, Bool.false_eq_true, if_false]
  rfl

end Start

/-! ## Literals -/

/-- A raw literal has its opening quote after number signs. -/
theorem front_of_rawLiteral {a : Alphabet} {cs : List Char} {found : List Char × List Char}
    (h : rawLiteral a cs = some found) :
    ∃ rest, cs = '"' :: rest ∨ cs = '#' :: '"' :: rest ∨ cs = '#' :: '#' :: rest := by
  unfold rawLiteral at h
  dsimp only at h
  split at h
  · next body heq =>
    match cs with
    | [] => cases heq
    | [c] =>
      by_cases hc : c = '#'
      · simp [hc] at heq
      · simp_all
    | c :: d :: rest =>
      by_cases hc : c = '#'
      · subst hc
        by_cases hd : d = '#'
        · exact ⟨rest, .inr (.inr (by rw [hd]))⟩
        · simp [hd] at heq
          exact ⟨rest, .inr (.inl (by rw [heq.1]))⟩
      · simp [hc] at heq
        exact ⟨d :: rest, .inl (by rw [heq.1])⟩
  · cases h

theorem front_of_cookedLiteral {a : Alphabet} {cs : List Char} {found : List Char × List Char}
    (h : cookedLiteral a cs = some found) : ∃ rest, cs = '"' :: rest := by
  unfold cookedLiteral at h
  split at h
  · exact ⟨_, rfl⟩
  · cases h

theorem front_of_quotedCharacter {a : Alphabet} {cs : List Char} {found : Char × List Char}
    (h : quotedCharacter a cs = some found) : ∃ rest, cs = '\'' :: rest := by
  unfold quotedCharacter at h
  split at h
  · exact ⟨_, rfl⟩
  · exact ⟨_, rfl⟩
  · cases h

theorem toNat_of_isAlpha {c : Char} (h : c.isAlpha = true) :
    65 ≤ c.toNat ∧ c.toNat ≤ 90 ∨ 97 ≤ c.toNat ∧ c.toNat ≤ 122 := by
  change (decide ('A'.val ≤ c.val ∧ c.val ≤ 'Z'.val) ||
    (decide ('a'.val ≤ c.val) && decide (c.val ≤ 'z'.val))) = true at h
  simpa [UInt32.le_iff_toNat_le] using h

theorem not_isDigit_of_isIdentifierStart {c : Char} (h : isIdentifierStart c = true) :
    c.isDigit = false := by
  rw [Bool.eq_false_iff]
  intro hdigit
  have hcode : 48 ≤ c.toNat ∧ c.toNat ≤ 57 := by
    simpa [Char.isDigit, UInt32.le_iff_toNat_le] using hdigit
  have hletter : c.isAlpha = true ∨ c = '_' := by
    simpa [isIdentifierStart, show c.toNat < 128 by omega] using h
  rcases hletter with hletter | rfl
  · have hcode := toNat_of_isAlpha hletter
    omega
  · simp at hcode

/-- A letter is no digit of a decimal number. -/
theorem baseDigits_eq_none {c : Char} {cs : List Char} (h : c.isDigit = false) :
    baseDigits 10 true (c :: cs) = none := by
  rw [baseDigits]
  split
  · rfl
  · split
    · next hhex =>
      have hletter : (97 ≤ c.toNat ∧ c.toNat ≤ 102) ∨ (65 ≤ c.toNat ∧ c.toNat ≤ 70) := by
        simpa [isHexDigit, h, Char.le_def, UInt32.le_iff_toNat_le] using hhex
      have hvalue : ¬hexValue c < 10 := by
        rw [hexValue, if_neg (by simp [h])]
        split
        · next hlower =>
          have hcode : 97 ≤ c.toNat := by
            have hlower : 'a' ≤ c := by simp_all
            simpa [Char.le_def, UInt32.le_iff_toNat_le] using hlower
          have ha : 'a'.toNat = 97 := rfl
          omega
        · have hA : 'A'.toNat = 65 := rfl
          omega
      rw [if_neg hvalue, if_pos (by simp)]
    · rfl

/-- A literal that begins like an identifier has one of the beginnings of literals. -/
theorem anyLiteral_eq_none {c : Char} {cs : List Char} (hc : isIdentifierStart c = true)
    (h : startsLiteral (c :: cs) = false) : anyLiteral (c :: cs) = none := by
  have hother {d : Char} (hd : isIdentifierStart d = false) {rest : List Char} :
      c :: cs ≠ d :: rest := ne_cons_of_isIdentifierStart hc hd cs rest
  have hstring : stringLiteral (c :: cs) = none := by
    rw [Option.eq_none_iff_forall_ne_some]
    intro found hfound
    unfold stringLiteral at hfound
    split at hfound
    · next heq =>
      obtain ⟨rfl, rfl⟩ := List.cons.inj heq
      obtain ⟨rest, rfl | rfl | rfl⟩ := front_of_rawLiteral hfound <;> simp [startsLiteral] at h
    · obtain ⟨rest, heq⟩ := front_of_cookedLiteral hfound
      exact hother (by decide) heq
  have hbytes : byteStringLiteral (c :: cs) = none := by
    rw [Option.eq_none_iff_forall_ne_some]
    intro found hfound
    unfold byteStringLiteral at hfound
    split at hfound
    · next heq =>
      obtain ⟨rfl, rfl⟩ := List.cons.inj heq
      obtain ⟨rest, rfl | rfl | rfl⟩ := front_of_rawLiteral hfound <;> simp [startsLiteral] at h
    · next heq =>
      obtain ⟨rfl, rfl⟩ := List.cons.inj heq
      obtain ⟨rest, rfl⟩ := front_of_cookedLiteral hfound
      simp [startsLiteral] at h
    · cases hfound
  have hzero : zeroEndedLiteral (c :: cs) = none := by
    rw [Option.eq_none_iff_forall_ne_some]
    intro found hfound
    unfold zeroEndedLiteral at hfound
    split at hfound
    · next heq =>
      obtain ⟨rfl, rfl⟩ := List.cons.inj heq
      obtain ⟨_, hvalue, _⟩ := Option.bind_eq_some_iff.mp hfound
      obtain ⟨rest, rfl | rfl | rfl⟩ := front_of_rawLiteral hvalue <;> simp [startsLiteral] at h
    · next heq =>
      obtain ⟨rfl, rfl⟩ := List.cons.inj heq
      obtain ⟨_, hvalue, _⟩ := Option.bind_eq_some_iff.mp hfound
      obtain ⟨rest, rfl⟩ := front_of_cookedLiteral hvalue
      simp [startsLiteral] at h
    · cases hfound
  have hbyte : byteLiteral (c :: cs) = none := by
    rw [Option.eq_none_iff_forall_ne_some]
    intro found hfound
    unfold byteLiteral at hfound
    split at hfound
    · next heq =>
      obtain ⟨rfl, rfl⟩ := List.cons.inj heq
      obtain ⟨rest, rfl⟩ := front_of_quotedCharacter hfound
      simp [startsLiteral] at h
    · cases hfound
  have hcharacter : characterLiteral (c :: cs) = none := by
    rw [Option.eq_none_iff_forall_ne_some]
    intro found hfound
    obtain ⟨rest, heq⟩ := front_of_quotedCharacter hfound
    exact hother (by decide) heq
  have hbroken : startsBroken (c :: cs) = false := by
    rw [Bool.eq_false_iff]
    intro hbroken
    obtain ⟨rest, heq⟩ := List.isPrefixOf_iff_prefix.mp hbroken
    exact hother (by decide) heq.symm
  have hdigit := not_isDigit_of_isIdentifierStart hc
  have hfloat : floatLiteral (c :: cs) = none := by
    simp [floatLiteral, floatDigits, hdigit]
  have hinteger : integerLiteral (c :: cs) = none := by
    have hdigits : integerDigits (c :: cs) = none := by
      unfold integerDigits
      split
      case h_4 => rw [baseDigits_eq_none hdigit, Option.map_none]
      all_goals
        next heq => exact absurd heq (hother (by decide))
    simp [integerLiteral, hdigits]
  simp [anyLiteral, hstring, hbytes, hzero, hbyte, hcharacter, hbroken, hfloat, hinteger]

/-! ## Trees -/

/-- The trees before all open groups, in reverse. -/
def bottom : List (Delimiter × List Token) → List Token → List Token
  | [], done => done
  | (_, outer) :: stack, _ => bottom stack outer

theorem prefix_bottom_cons (stack : List (Delimiter × List Token)) (done : List Token) (t : Token) :
    (bottom stack done).reverse <+: (bottom stack (t :: done)).reverse := by
  cases stack with
  | nil => simp [bottom]
  | cons => exact List.prefix_rfl

/-- Trees that are not in an open group stay at the front. -/
theorem prefix_of_nest {stack : List (Delimiter × List Token)} {done tokens : List Token}
    {lexemes : List Lexeme} (h : nest stack done lexemes = some tokens) :
    (bottom stack done).reverse <+: tokens := by
  induction stack, done, lexemes using nest.induct with
  | case1 done =>
    cases h
    exact List.prefix_rfl
  | case2 => cases h
  | case3 stack done t rest ih =>
    rw [nest] at h
    exact (prefix_bottom_cons stack done t).trans (ih h)
  | case4 stack done d rest ih =>
    rw [nest] at h
    exact ih h
  | case5 => cases h
  | case6 outer stack done e rest ih =>
    rw [nest, if_pos rfl] at h
    have hprefix := prefix_bottom_cons stack outer (.group e done.reverse)
    exact hprefix.trans (ih h)
  | case7 d outer stack done e rest hne =>
    rw [nest, if_neg hne] at h
    cases h

/-- An open group becomes a tree after those before it. -/
theorem getElem?_of_nest {d : Delimiter} {outer : List Token}
    {stack : List (Delimiter × List Token)} {done tokens : List Token} {lexemes : List Lexeme}
    (h : nest ((d, outer) :: stack) done lexemes = some tokens) :
    ∃ e trees, tokens[(bottom ((d, outer) :: stack) done).length]? = some (.group e trees) := by
  generalize hopen : (d, outer) :: stack = opened at h ⊢
  induction opened, done, lexemes using nest.induct generalizing d outer stack with
  | case1 done => cases hopen
  | case2 => cases h
  | case3 opened done t rest ih =>
    subst hopen
    rw [nest] at h
    exact ih rfl h
  | case4 opened done e rest ih =>
    subst hopen
    rw [nest] at h
    exact ih rfl h
  | case5 => cases h
  | case6 outer' opened done e rest ih =>
    rw [nest, if_pos rfl] at h
    cases opened with
    | cons top opened => exact ih rfl h
    | nil =>
      obtain ⟨later, rfl⟩ := prefix_of_nest h
      exact ⟨e, done.reverse, by simp [bottom]⟩
  | case7 d' outer' opened done e rest hne =>
    rw [nest, if_neg hne] at h
    cases h

/-- A single tree that is no group is the only lexeme. -/
theorem nest_eq_singleton {t : Token} (ht : ∀ d trees, t ≠ .group d trees) {first : Lexeme}
    {later : List Lexeme} :
    nest [] [] (first :: later) = some [t] ↔ first = .token t ∧ later = [] := by
  constructor
  · intro h
    cases first with
    | closing d => cases h
    | opening d =>
      obtain ⟨e, trees, hgroup⟩ := getElem?_of_nest (show nest [(d, [])] [] later = some [t] from h)
      exact absurd (by simpa [bottom] using hgroup) (ht e trees)
    | token t' =>
      have hnest : nest [] [t'] later = some [t] := h
      obtain rfl : t' = t := by simpa [bottom] using prefix_of_nest hnest
      refine ⟨rfl, ?_⟩
      cases later with
      | nil => rfl
      | cons next later =>
        -- what comes after would be a second tree
        exfalso
        cases next with
        | closing d => cases hnest
        | opening d =>
          obtain ⟨e, trees, hgroup⟩ :=
            getElem?_of_nest (show nest [(d, [t'])] [] later = some [t'] from hnest)
          simp [bottom] at hgroup
        | token t₂ =>
          have hprefix := prefix_of_nest (show nest [] [t₂, t'] later = some [t'] from hnest)
          have hlong := hprefix.length_le
          simp [bottom] at hlong
  · rintro ⟨rfl, rfl⟩
    rfl

/-! ## Lexemes -/

/-- Whether a lexeme is neither an identifier nor a group. -/
def Lexeme.isPlain : Lexeme → Bool
  | .token (.ident _ _) | .token (.group _ _) => false
  | _ => true

/-- What can be at the front of a text: an identifier, or what is none. The lexemes of a
documentation comment have an identifier in them. -/
theorem nextLexemes_cases {line : Nat} {cs rest : List Char} {found : List Lexeme}
    (h : nextLexemes line cs = some (found, rest)) :
    (∃ first more, found = first :: more ∧ first.isPlain = true ∧
      ∀ lexeme ∈ more, lexeme.isPlain = true ∨ lexeme = .token (.ident "doc")) ∨
      (startsLiteral cs = false ∧ ∃ name, identifier cs = some (name, rest) ∧
        found = [.token (.ident (String.ofList name) line)]) := by
  have hsingle {first : Lexeme} {found : List Lexeme} (hfound : [first] = found)
      (hfirst : first.isPlain = true) :
      ∃ first more, found = first :: more ∧ first.isPlain = true ∧
        ∀ lexeme ∈ more, lexeme.isPlain = true ∨ lexeme = .token (.ident "doc") :=
    ⟨first, [], hfound.symm, hfirst, List.forall_mem_nil _⟩
  unfold nextLexemes at h
  split at h
  · next text isInner _ _ =>
    split at h
    · cases h
      refine .inl ⟨_, _, rfl, rfl, fun lexeme hlexeme => ?_⟩
      cases isInner <;> simp at hlexeme <;> grind [Lexeme.isPlain]
    · cases h
  · split at h
    · cases h
    · next c tail =>
      split at h
      · cases h
        exact .inl (hsingle rfl rfl)
      · cases h
        exact .inl (hsingle rfl rfl)
      · split at h
        · cases h
          exact .inl (hsingle rfl rfl)
        · split at h
          · split at h
            · obtain ⟨⟨name, rest'⟩, _, h⟩ := Option.bind_eq_some_iff.mp h
              dsimp only at h
              split at h
              · cases h
                exact .inl (hsingle rfl rfl)
              · split at h
                · cases h
                · cases h
                  exact .inl (hsingle rfl rfl)
            · cases h
              exact .inl (hsingle rfl rfl)
          · split at h
            · cases h
            · next hliteral =>
              obtain ⟨⟨name, rest'⟩, hname, h⟩ := Option.bind_eq_some_iff.mp h
              cases h
              exact .inr ⟨by simpa using hliteral, name, hname, rfl⟩

/-! ## Names -/

/-- An identifier begins with a letter or an underscore. -/
theorem isIdentifierStart_of_identifier {cs : List Char} {found : List Char × List Char}
    (h : identifier cs = some found) : ∃ c rest, cs = c :: rest ∧ isIdentifierStart c = true := by
  unfold identifier at h
  split at h
  · exact ⟨'r', _, rfl, by decide⟩
  · unfold plainIdentifier at h
    split at h
    · cases h
    · next c rest _ =>
      split at h
      · next hstart => exact ⟨c, rest, rfl, hstart⟩
      · cases h

/-- Unless it has one of the beginnings of literals, a text that begins with an identifier does so
as far as lexemes are concerned. -/
theorem nextLexemes_of_identifier {cs name rest : List Char} (hliteral : startsLiteral cs = false)
    (hname : identifier cs = some (name, rest)) (line : Nat) :
    nextLexemes line cs = some ([.token (.ident (String.ofList name) line)], rest) := by
  obtain ⟨c, tail, rfl, hstart⟩ := isIdentifierStart_of_identifier hname
  rw [nextLexemes_eq_of_isIdentifierStart hstart, anyLiteral_eq_none hstart hliteral, hname]
  simp [hliteral]

/-- A text has no lexemes if it has only gaps. -/
theorem lexemes_eq_nil {lastLine fuel : Nat} {cs : List Char} :
    lexemes lastLine (fuel + 1) cs = some [] ↔ skipGaps cs.length cs = [] := by
  rw [lexemes]
  cases hgaps : skipGaps cs.length cs with
  | nil => simp
  | cons c tail =>
    refine iff_of_false (fun h => ?_) (by simp)
    obtain ⟨⟨first, rest⟩, hfirst, h⟩ := Option.bind_eq_some_iff.mp h
    obtain ⟨later, _, h⟩ := Option.bind_eq_some_iff.mp h
    rcases nextLexemes_cases hfirst with ⟨_, _, rfl, _⟩ | ⟨_, _, _, rfl⟩ <;> simp at h

/-- The text after the mark and the gaps that may stand at its beginning. -/
def ahead (text : String) : List Char :=
  skipGaps (skipOrderMark text.toList).length (skipOrderMark text.toList)

/-- What is read as a name: after gaps an identifier that is no reserved word, and then gaps
only. -/
theorem parseName_eq_some_iff {text name : String} :
    parseName text = some name ↔ startsLiteral (ahead text) = false ∧
      ∃ chars rest, identifier (ahead text) = some (chars, rest) ∧
        skipGaps rest.length rest = [] ∧ name = String.ofList chars ∧ isName name = true := by
  unfold parseName lex lexChars ahead
  generalize skipOrderMark text.toList = cs
  constructor
  · intro h
    split at h
    case h_2 => cases h
    next word line hlex =>
    obtain ⟨found, hfound, hnest⟩ := Option.bind_eq_some_iff.mp hlex
    rw [lexemes] at hfound
    split at hfound
    · cases hfound
      cases hnest
    · next c tail hgaps =>
      obtain ⟨⟨first, rest⟩, hfirst, hfound⟩ := Option.bind_eq_some_iff.mp hfound
      obtain ⟨later, hlater, hfound⟩ := Option.bind_eq_some_iff.mp hfound
      cases hfound
      rcases nextLexemes_cases hfirst with ⟨other, more, rfl, hother⟩ | ⟨hliteral, chars, hid, rfl⟩
      · obtain ⟨rfl, _⟩ := (nest_eq_singleton (by simp)).mp hnest
        cases hother.1
      · obtain ⟨hword, rfl⟩ := (nest_eq_singleton (by simp)).mp hnest
        obtain ⟨rfl, rfl⟩ : String.ofList chars = word ∧ _ = line := by simpa using hword
        obtain ⟨fuel, hfuel⟩ : ∃ fuel, cs.length = fuel + 1 := by
          refine Nat.exists_eq_succ_of_ne_zero fun hzero => ?_
          simp [hzero, lexemes] at hlater
        rw [hfuel] at hlater
        split at h
        · next hname =>
          cases h
          rw [hgaps]
          exact ⟨hliteral, chars, rest, hid, lexemes_eq_nil.mp hlater, rfl, hname⟩
        · cases h
  · rintro ⟨hliteral, chars, rest, hid, hrest, rfl, hname⟩
    have hnext := nextLexemes_of_identifier hliteral hid
    obtain ⟨c, tail, hgaps, _⟩ := isIdentifierStart_of_identifier hid
    obtain ⟨fuel, hfuel⟩ : ∃ fuel, cs.length = fuel + 1 := by
      refine Nat.exists_eq_succ_of_ne_zero fun hzero => ?_
      rw [List.length_eq_zero_iff.mp hzero] at hgaps
      cases hgaps
    have hlater : lexemes (cs.count '\n' + 1) cs.length rest = some [] := by
      rw [hfuel]
      exact lexemes_eq_nil.mpr hrest
    rw [hgaps] at hnext
    simp [lexemes, hgaps, hnext, hlater, nest, hname]

/-- Nothing stands ahead of an identifier at the front of a text. -/
theorem ahead_of_isIdentifierStart {text : String} {c : Char} {cs : List Char}
    (htext : text.toList = c :: cs) (hstart : isIdentifierStart c = true) :
    ahead text = text.toList := by
  have hmark : skipOrderMark (c :: cs) = c :: cs := by
    unfold skipOrderMark
    split
    · next heq => exact absurd heq (ne_cons_of_isIdentifierStart hstart (by decide +kernel) _ _)
    · rfl
  rw [ahead, htext, hmark, skipGaps_of_isIdentifierStart hstart]

/-- The name in a text that is an identifier is the text. -/
theorem eq_of_parseName {text name : String}
    (hid : identifier text.toList = some (text.toList, [])) (h : parseName text = some name) :
    name = text := by
  obtain ⟨_, chars, rest, hchars, _, rfl, _⟩ := parseName_eq_some_iff.mp h
  obtain ⟨c, cs, htext, hstart⟩ := isIdentifierStart_of_identifier hid
  rw [ahead_of_isIdentifierStart htext hstart, hid] at hchars
  cases hchars
  exact String.ofList_toList

end DaoGen.Code
