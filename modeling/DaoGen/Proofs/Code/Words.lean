import DaoGen.Proofs.Code.TypeReading

/-!
# Words of a text

The lexer makes identifiers of words only, so every identifier that a production reads from the
tokens of a text is a word, however deeply it is nested.

## Main definitions

* `HasWords`: the identifiers among some tokens are those of texts.

## Main results

* `hasWords_of_lexChars`: the tokens of a text have words only.
-/
namespace DaoGen

open Code Language Text

/-- Whether a token is an identifier that no text has. -/
def isOddName : Token → Bool
  | .ident text _ => !decide (IsWord text)
  | _ => false

/-- Every identifier among tokens, at any depth, is that of a text. -/
def HasWords (tokens : List Token) : Prop := anyLeafOf isOddName tokens = false

instance (tokens : List Token) : Decidable (HasWords tokens) := inferInstanceAs (Decidable (_ = _))

theorem hasWords_append {ts us : List Token} : HasWords (ts ++ us) ↔ HasWords ts ∧ HasWords us := by
  simp [HasWords, anyLeafOf_append]

theorem hasWords_tokensOf {trees : Trees} :
    HasWords (tokensOf trees) ↔ ∀ tree ∈ trees, HasWords tree.tokens := by
  simp [HasWords, anyLeafOf_tokensOf]

theorem hasWords_group {d : Delimiter} {content : List Token} :
    HasWords [.group d content] ↔ HasWords content := by
  simp [HasWords, anyLeafOf, Token.anyLeaf]

theorem hasWords_ident {text : String} {line : Nat} :
    HasWords [.ident text line] ↔ IsWord text := by
  simp [HasWords, anyLeafOf, Token.anyLeaf, isOddName]

theorem isWord_of_hasWords {text : String} {line : Nat} (h : HasWords [.ident text line]) :
    IsWord text := hasWords_ident.mp h

theorem hasWords_nil : HasWords [] := rfl

theorem hasWords_cons {t : Token} {ts : List Token} :
    HasWords (t :: ts) ↔ HasWords [t] ∧ HasWords ts :=
  @hasWords_append [t] ts

theorem hasWords_reverse {ts : List Token} : HasWords ts.reverse ↔ HasWords ts := by
  induction ts with
  | nil => rfl
  | cons t ts ih => rw [List.reverse_cons, hasWords_append, ih, and_comm, ← hasWords_cons]

/-- What comes after some tokens has words only if all have. -/
theorem HasWords.of_isSuffix {ts rest : List Token} (h : HasWords ts) (hrest : rest <:+ ts) :
    HasWords rest := by
  obtain ⟨front, rfl⟩ := hrest
  exact (hasWords_append.mp h).2

namespace Code

/-! ## Identifiers of a text -/

theorem plainIdentifier_eq_self_of_eq_some {cs name rest : List Char}
    (h : plainIdentifier cs = some (name, rest)) : plainIdentifier name = some (name, []) := by
  cases cs with
  | nil => cases h
  | cons c cs =>
    rw [plainIdentifier] at h
    split at h
    · next hc =>
      cases h
      have hall : ∀ d ∈ cs.takeWhile isIdentifierContinue, isIdentifierContinue d = true :=
        fun d hd => List.mem_takeWhile_imp hd
      exact plainIdentifier_cons hc hall
    · cases h

/-- What is split off as an identifier is one from end to end. -/
theorem isWord_of_identifier {cs name rest : List Char} (h : identifier cs = some (name, rest)) :
    IsWord (String.ofList name) := by
  rw [IsWord, String.toList_ofList]
  by_cases hraw : ∃ word, cs = 'r' :: '#' :: word
  · obtain ⟨word, rfl⟩ := hraw
    rw [identifier_raw] at h
    obtain ⟨⟨plain, later⟩, hplain, h⟩ := Option.bind_eq_some_iff.mp h
    split at h
    · cases h
    · next hnever =>
      cases h
      rw [identifier_raw, plainIdentifier_eq_self_of_eq_some hplain, Option.bind_some,
        if_neg hnever]
  · rw [identifier_plain fun word heq => hraw ⟨word, heq⟩] at h
    exact identifier_of_plainIdentifier (plainIdentifier_eq_self_of_eq_some h)

end Code

/-! ## Tokens of a text -/

/-- Trees have words if the lexemes that they are built of have. -/
theorem hasWords_of_nest {stack : List (Delimiter × List Token)} {done tokens : List Token}
    {lexemes : List Lexeme} (h : nest stack done lexemes = some tokens)
    (hstack : ∀ opened ∈ stack, HasWords opened.2) (hdone : HasWords done)
    (hlexemes : ∀ t, .token t ∈ lexemes → HasWords [t]) : HasWords tokens := by
  fun_induction nest stack done lexemes with
  | case1 done =>
    cases h
    exact hasWords_reverse.mpr hdone
  | case2 | case5 | case7 => cases h
  | case3 stack done t rest ih =>
    obtain hfirst := hlexemes t List.mem_cons_self
    exact ih h hstack (hasWords_cons.mpr ⟨hfirst, hdone⟩)
      fun t ht => hlexemes t (List.mem_cons_of_mem _ ht)
  | case4 stack done d rest ih =>
    exact ih h (List.forall_mem_cons.mpr ⟨hdone, hstack⟩) hasWords_nil
      fun t ht => hlexemes t (List.mem_cons_of_mem _ ht)
  | case6 outer stack done e rest ih =>
    obtain ⟨houter, hstack⟩ := List.forall_mem_cons.mp hstack
    have hgroup : HasWords [.group e done.reverse] :=
      hasWords_group.mpr (hasWords_reverse.mpr hdone)
    exact ih h hstack (hasWords_cons.mpr ⟨hgroup, houter⟩)
      fun t ht => hlexemes t (List.mem_cons_of_mem _ ht)

theorem hasWords_of_isPlain {t : Token} (h : (Lexeme.token t).isPlain = true) : HasWords [t] := by
  cases t with
  | ident | group => cases h
  | lifetime | punct | literal => rfl

theorem hasWords_of_nextLexemes {line : Nat} {cs rest : List Char} {found : List Lexeme}
    (h : nextLexemes line cs = some (found, rest)) {t : Token} (ht : .token t ∈ found) :
    HasWords [t] := by
  rcases nextLexemes_cases h with ⟨first, more, rfl, hfirst, hmore⟩ | ⟨_, name, hname, rfl⟩
  · rcases List.mem_cons.mp ht with rfl | ht
    · exact hasWords_of_isPlain hfirst
    · rcases hmore _ ht with hplain | hdoc
      · exact hasWords_of_isPlain hplain
      · cases hdoc
        exact hasWords_ident.mpr (by decide)
  · cases List.mem_singleton.mp ht
    exact hasWords_ident.mpr (isWord_of_identifier hname)

theorem hasWords_of_lexemes {lastLine fuel : Nat} {cs : List Char} {found : List Lexeme}
    (h : lexemes lastLine fuel cs = some found) {t : Token} (ht : .token t ∈ found) :
    HasWords [t] := by
  induction fuel generalizing cs found with
  | zero => cases h
  | succ fuel ih =>
    rw [lexemes] at h
    split at h
    · cases h
      cases ht
    · obtain ⟨⟨first, rest⟩, hfirst, h⟩ := Option.bind_eq_some_iff.mp h
      obtain ⟨later, hlater, h⟩ := Option.bind_eq_some_iff.mp h
      cases h
      rcases List.mem_append.mp ht with ht | ht
      · exact hasWords_of_nextLexemes hfirst ht
      · exact ih hlater ht

/-- The lexer makes identifiers of words only. -/
theorem hasWords_of_lexChars {cs : List Char} {tokens : List Token}
    (h : lexChars cs = some tokens) : HasWords tokens := by
  obtain ⟨found, hfound, hnest⟩ := Option.bind_eq_some_iff.mp h
  exact hasWords_of_nest hnest (List.forall_mem_nil _) hasWords_nil
    fun _ ht => hasWords_of_lexemes hfound ht

end DaoGen
