import DaoGen.Proofs.Code.StableType

/-!
# Legible types

Whether a type is legible depends on its parts that are no types: the lengths of arrays, blocks and
what attributes hold. These can be read to see whether they come back, so it can be computed that a
type is legible. Numbers and names come back whatever they are.

## Main definitions

* `readsAgain`: whether what fills a group comes back when it is read.
* `ParseTree.isSimple`: whether a tree is seen to be legible and has no literals but numbers.

## Main results

* `isLiteral_of_digits`: a number is read as a literal.
* `fillsAgain_literal`, `fillsAgain_name`: literals and names are read again as lengths.
* `isLegible_of_isSimple`: a simple tree is legible.
-/
namespace DaoGen.Code

open Text Code.Language

/-! ## Numbers -/

/-- The decimal digits. -/
def decimalDigits : List Char := ['0', '1', '2', '3', '4', '5', '6', '7', '8', '9']

section Numbers

variable {digits rest : List Char}

/-- A number does not go on with a fresh character. -/
theorem looks_of_isFresh {c : Char} (h : isFresh (c :: rest) = true) :
    c ∉ ['_', '.', 'e', 'E', 'x', 'o', 'b'] ∧ c.isDigit = false ∧ isHexDigit c = false ∧
      isDigitOrUnderscore c = false ∧ isIdentifierStart c = false := by
  have hall : [' ', ',', '<', '>', ':', ')', ']', '\x7d'].all (fun c =>
      !(['_', '.', 'e', 'E', 'x', 'o', 'b'].contains c) && !c.isDigit && !isHexDigit c &&
        !isDigitOrUnderscore c && !isIdentifierStart c) = true := by decide +kernel
  simpa [and_assoc] using List.all_eq_true.mp hall c (List.contains_iff_mem.mp h)

theorem value_of_digit {c : Char} (hc : c ∈ decimalDigits) : c ∉ ['_', '\n', 'x', 'o', 'b'] ∧
    isHexDigit c = true ∧ hexValue c < 10 ∧ c.isDigit = true ∧ isDigitOrUnderscore c = true := by
  have hall : decimalDigits.all (fun c => !(['_', '\n', 'x', 'o', 'b'].contains c) &&
      isHexDigit c && decide (hexValue c < 10) && c.isDigit && isDigitOrUnderscore c) = true := by
    decide +kernel
  simpa [and_assoc] using List.all_eq_true.mp hall c hc

theorem baseDigits_digits (hdigits : ∀ c ∈ digits, c ∈ decimalDigits) (hrest : isFresh rest = true)
    {isFirst : Bool} (hfirst : isFirst = true → digits ≠ []) :
    baseDigits 10 isFirst (digits ++ rest) = some (digits, rest) := by
  induction digits generalizing isFirst with
  | nil =>
    obtain rfl : isFirst = false := by simpa using hfirst
    cases rest with
    | nil => rfl
    | cons c rest =>
      obtain ⟨hc, -, hhex, -⟩ := looks_of_isFresh hrest
      have hunderscore : c ≠ '_' := by simp_all
      simp [baseDigits, hunderscore, hhex]
  | cons c digits ih =>
    obtain ⟨hc, hdigits⟩ := List.forall_mem_cons.mp hdigits
    have hlater : baseDigits 10 false (digits ++ rest) = some (digits, rest) :=
      ih hdigits fun h => absurd h Bool.false_ne_true
    obtain ⟨hletter, hhex, hvalue, -⟩ := value_of_digit hc
    have hunderscore : c ≠ '_' := fun h => hletter (by simp [h])
    simp [baseDigits, hunderscore, hhex, hvalue, hlater]

/-- Digits have no fraction and no exponent. -/
theorem floatDigits_digits (hdigits : ∀ c ∈ digits, c ∈ decimalDigits)
    (hrest : isFresh rest = true) : floatDigits (digits ++ rest) = none := by
  have hstop : rest.dropWhile isDigitOrUnderscore = rest := by
    cases rest with
    | nil => rfl
    | cons c rest => simp [looks_of_isFresh hrest]
  cases digits with
  | nil =>
    cases rest with
    | nil => rfl
    | cons c rest => simp [floatDigits, looks_of_isFresh hrest]
  | cons c digits =>
    obtain ⟨hc, hdigits⟩ := List.forall_mem_cons.mp hdigits
    have hdrop : (digits ++ rest).dropWhile isDigitOrUnderscore = rest := by
      rw [List.dropWhile_append_of_pos fun d hd => (value_of_digit (hdigits d hd)).2.2.2.2, hstop]
    rw [List.cons_append, floatDigits, hdrop]
    cases rest with
    | nil => simp [value_of_digit hc]
    | cons d rest =>
      obtain ⟨hd, -⟩ := looks_of_isFresh hrest
      obtain ⟨-, -, -, hdigit, -⟩ := value_of_digit hc
      simp_all

/-- Digits begin no other literal, no group and no comment. -/
theorem looks_of_digit {c : Char} (hc : c ∈ decimalDigits) (tail : List Char) :
    stringLiteral (c :: tail) = none ∧ byteStringLiteral (c :: tail) = none ∧
      zeroEndedLiteral (c :: tail) = none ∧ byteLiteral (c :: tail) = none ∧
      characterLiteral (c :: tail) = none ∧ startsBroken (c :: tail) = false := by
  simp only [decimalDigits, List.mem_cons, List.not_mem_nil, or_false] at hc
  rcases hc with rfl | rfl | rfl | rfl | rfl | rfl | rfl | rfl | rfl | rfl <;>
    exact ⟨rfl, rfl, rfl, rfl, rfl, rfl⟩

theorem integerDigits_digits (hdigits : ∀ c ∈ digits, c ∈ decimalDigits) (hne : digits ≠ [])
    (hrest : isFresh rest = true) :
    integerDigits (digits ++ rest) = some (10, digits, rest) := by
  obtain ⟨c, digits, rfl⟩ := List.exists_cons_of_ne_nil hne
  have hbase : baseDigits 10 true (c :: digits ++ rest) = some (c :: digits, rest) :=
    baseDigits_digits hdigits hrest fun _ => hne
  -- no letter of another base stands after the first digit
  have hnext : ∀ d ∈ ['x', 'o', 'b'], ∀ later, digits ++ rest ≠ d :: later := by
    intro d hd later heq
    cases digits with
    | nil =>
      obtain rfl : rest = d :: later := heq
      exact (looks_of_isFresh hrest).1 (List.mem_append_right ['_', '.', 'e', 'E'] hd)
    | cons first digits =>
      obtain ⟨rfl, -⟩ := List.cons.inj heq
      exact (value_of_digit (hdigits _ (by simp))).1 (List.mem_append_right ['_', '\n'] hd)
  unfold integerDigits
  split
  · next heq => exact absurd (List.cons.inj heq).2 (hnext 'x' (by simp) _)
  · next heq => exact absurd (List.cons.inj heq).2 (hnext 'o' (by simp) _)
  · next heq => exact absurd (List.cons.inj heq).2 (hnext 'b' (by simp) _)
  · rw [hbase]
    rfl

theorem anyLiteral_digits (hne : digits ≠ []) (hdigits : ∀ c ∈ digits, c ∈ decimalDigits)
    (hrest : isFresh rest = true) : anyLiteral (digits ++ rest) = some rest := by
  have hinteger : integerLiteral (digits ++ rest) = some rest := by
    have hend : skipSuffix rest = rest ∧ wordBreak rest = some rest := by
      cases rest with
      | nil => exact ⟨rfl, rfl⟩
      | cons c rest =>
        simp [skipSuffix, plainIdentifier, looks_of_isFresh hrest, wordBreak,
          (head_of_isFresh hrest).1]
    simp [integerLiteral, integerDigits_digits hdigits hne hrest, hend]
  obtain ⟨c, tail, rfl⟩ := List.exists_cons_of_ne_nil hne
  obtain ⟨hstring, hbytes, hzero, hbyte, hchar, hbroken⟩ :=
    looks_of_digit (hdigits c List.mem_cons_self) (tail ++ rest)
  have hfloat := floatDigits_digits hdigits hrest
  rw [List.cons_append] at hinteger hfloat ⊢
  simp [anyLiteral, hstring, hbytes, hzero, hbyte, hchar, hbroken, floatLiteral, hfloat, hinteger]

/-- Digits are read as a literal. -/
theorem isLiteral_of_digits {text : String} (hne : text.toList ≠ [])
    (hdigits : ∀ c ∈ text.toList, c ∈ decimalDigits) : IsLiteral text := by
  refine ⟨fun hmem => (value_of_digit (hdigits _ hmem)).1 (by simp), fun rest hrest => ?_⟩
  have hliteral := anyLiteral_digits hne hdigits hrest
  obtain ⟨c, tail, htext⟩ := List.exists_cons_of_ne_nil hne
  have hc : c ∈ decimalDigits := hdigits c (by simp [htext])
  have hlooks : afterGap (c :: (tail ++ rest)) = none ∧ docComment (c :: (tail ++ rest)) = none ∧
      opens? (c :: (tail ++ rest)) = none ∧ closes? c = none := by
    simp only [decimalDigits, List.mem_cons, List.not_mem_nil, or_false] at hc
    rcases hc with rfl | rfl | rfl | rfl | rfl | rfl | rfl | rfl | rfl | rfl <;>
      exact ⟨rfl, rfl, rfl, rfl⟩
  obtain ⟨hgap, hdoc, hopen, hclose⟩ := hlooks
  rw [htext, List.cons_append] at hliteral ⊢
  refine ⟨hgap, ?_⟩
  have htake : (c :: (tail ++ rest)).take ((c :: (tail ++ rest)).length - rest.length) =
      c :: tail := by
    rw [← List.cons_append, List.length_append, Nat.add_sub_cancel, List.take_left]
  simp only [nextLexemes, hdoc, hopen, hclose, hliteral, htake]
  rw [← htext, String.ofList_toList]

end Numbers

/-! ## Expressions -/

section Operand

variable {depth : Nat} {t : Token} {form : ExpressionKind} {children : Trees}

/-- What is read from a single token is an expression, unless the token is the mark of something
that stands before an operand. -/
theorem reads_expression
    (hatom : Reads (language.read depth) (atom true) [t] [.node (.expression form) children] [])
    (hform : form ≠ .verbatim ∧ form ≠ .range)
    (hlooks : ∀ text ∈ ["#", "&", "*", "!", "-"], atOp text [t] = false) :
    Reads (language.read (depth + 2)) (call (.expression true)) [t]
      [.node (.expression form) children] [] := by
  have hkind : kindOf? [.node (.expression form) children] = some form := rfl
  have hrange : operandOf [.node (.expression form) children] ≠ .range := by
    unfold operandOf
    rw [hkind]
    split <;> simp_all
  have hattributes : Reads (language.read depth) attributes [t] [] [t] :=
    ReadsMany.reads (.done (hlooks "#" (by simp)))
  have hoperand : Reads (language.read depth) (operand true false) [t]
      [.node (.expression form) children] [] := by
    have hsuffixes : Reads (language.read depth) suffixes [] [] [] := ReadsMany.reads (.done rfl)
    exact hatom.bind (by rwa [if_neg hrange])
  have hunary : Reads (language.read (depth + 1)) (call (.unary true)) [t]
      [.node (.expression form) children] [] := by
    have hshaped : Reads (language.read depth) (unary true) [t]
        (if kindOf? ([] ++ [.node (.expression form) children]) = some .verbatim then
          [.node (.expression .verbatim) (Production.written [t] [])]
        else [] ++ [.node (.expression form) children]) [] :=
      (hattributes.bind (.select_neg (hlooks "&" (by simp)) (.select_neg (hlooks "*" (by simp))
        (.select_neg (hlooks "!" (by simp)) (.select_neg (hlooks "-" (by simp))
          (.select_nil hoperand)))))).shaped
    rw [List.nil_append, hkind, if_neg (by simp [hform.1])] at hshaped
    exact hshaped
  have htails : Reads (language.read (depth + 1))
      (call (.tails true .weakest (operandOf [.node (.expression form) children]))) [] [] [] := by
    refine Reads.call (Reads.choose ?_)
    have hahead : strengthAhead [] = .weakest := by decide
    rw [hahead]
    simpa using Reads.empty
  exact Reads.call (hunary.bind htails)

end Operand

/-- A literal is read again. -/
theorem fillsAgain_literal {text : String} (h : IsLiteral text) :
    FillsAgain (call (.expression true))
      [.node (.expression .literal) [.leaf (.literal text)]] where
  plain := by simpa [unlinedTrees, ParseTree.unlined, Token.unlined, ArePlain, Token.IsPlain,
    Token.isJoint] using h
  reads := by
    refine reads_expression ?_ (by decide) (by simp [Token.unlined, atOp, takeOperator])
    exact .select_pos rfl (Reads.take [.literal text] rfl).labelled

/-- The tree of an expression that is a single name. -/
def nameExpression (text : String) (line : Nat) : ParseTree Part :=
  .node (.expression .path) [.node .path [.node .segment [.leaf (.ident text line)]]]

theorem reads_nameExpression {depth : Nat} {text : String} (hname : isName text = true) :
    Reads (language.read depth) (atom true) [.ident text 1] [nameExpression text 1] [] := by
  have hreserved (word : String) (hword : word ∈ reservedWords) : text ≠ word := by
    rintro rfl
    simp [isName, hword] at hname
  have hword (word : String) (hword : word ∈ reservedWords) :
      atWord word [.ident text 1] = false := by
    simpa [atWord] using hreserved word hword
  have hop (op : String) : atOp op [.ident text 1] = false := by simp [atOp, takeOperator]
  have hsegment : Reads (language.read depth) (segment true) [.ident text 1]
      [.node .segment [.leaf (.ident text 1)]] [] := by
    have hkeyword : atAnyWord ["super", "self", "crate", "try"] [.ident text 1] = false := by
      simp (disch := decide) [atAnyWord, hreserved]
    have hname : Reads (language.read depth) (.either (atWord "Self") anyName name) [.ident text 1]
        [.leaf (.ident text 1)] [] := .either_neg (hword "Self" (by decide)) (.name hname)
    exact Reads.labelled (.either_neg hkeyword (hname.append (.given_neg rfl)))
  have hpath : Reads (language.read depth) (anyKindOfPath true) [.ident text 1]
      [.node .path [.node .segment [.leaf (.ident text 1)]]] [] := by
    refine .either_neg (hop "<") (Reads.labelled ?_)
    exact ((Reads.given_neg (hop "::")).append hsegment).append (ReadsMany.reads (.done rfl))
  have hliteral : atLiteral [.ident text 1] = false := by
    have htrue := hreserved "true" (by decide)
    have hfalse := hreserved "false" (by decide)
    simp [atLiteral, takeLiteral, htrue, hfalse]
  have hasync : atAsyncBlock [.ident text 1] = false := by
    simp (disch := decide) [atAsyncBlock, hword]
  have htry : atTryBlock [.ident text 1] = false := by simp (disch := decide) [atTryBlock, hword]
  have hclosure : atClosure [.ident text 1] = false := by
    simp (disch := decide) [atClosure, atForClosure, hop, hword]
  have hbuiltin : (atWord "builtin" [.ident text 1] && second (atOp "#") [.ident text 1]) =
      false := Bool.and_false _
  have hstart : startsPath [.ident text 1] = true := by
    simp [startsPath, atPathName, isPathName, hname]
  have hcall (path : Trees) : atMacroCall path [] = false := by
    simp [atMacroCall, atBang, atOp, takeOperator]
  have hexpression : Reads (language.read depth) (pathExpression true) [.ident text 1]
      (labelPathExpression
        ([.node .path [.node .segment [.leaf (.ident text 1)]]] ++ [])) [] :=
    Reads.edited (hpath.bind
      (.select_neg (hcall _) (.select_neg rfl (.select_nil .empty))))
  exact .select_neg hliteral (.select_neg hasync (.select_neg htry (.select_neg hclosure
    (.select_neg hbuiltin (.select_pos hstart hexpression)))))

/-- So is a name. -/
theorem fillsAgain_name {text : String} (line : Nat) (hword : IsWord text)
    (hname : isName text = true) :
    FillsAgain (call (.expression true)) [nameExpression text line] where
  plain := by simpa [nameExpression, unlinedTrees, ParseTree.unlined, Token.unlined, ArePlain,
    Token.IsPlain, Token.isJoint] using hword
  reads := reads_expression (reads_nameExpression hname) (by decide)
    (by simp [Token.unlined, atOp, takeOperator])

/-! ## Comparing readings -/

mutual

/-- Equality of tokens is decidable. -/
def Token.decEq : (t u : Token) → Decidable (t = u)
  | .ident text line, .ident text' line' =>
    decidable_of_iff (text = text' ∧ line = line') (by simp)
  | .lifetime name, .lifetime name' => decidable_of_iff (name = name') (by simp)
  | .punct ch joint, .punct ch' joint' => decidable_of_iff (ch = ch' ∧ joint = joint') (by simp)
  | .literal text, .literal text' => decidable_of_iff (text = text') (by simp)
  | .group d content, .group d' content' =>
    match decEqTokens content content' with
    | isTrue h => decidable_of_iff (d = d') (by simp [h])
    | isFalse h => isFalse (by simp [h])
  | .ident _ _, .lifetime _ | .ident _ _, .punct _ _ | .ident _ _, .literal _
  | .ident _ _, .group _ _ | .lifetime _, .ident _ _ | .lifetime _, .punct _ _
  | .lifetime _, .literal _ | .lifetime _, .group _ _ | .punct _ _, .ident _ _
  | .punct _ _, .lifetime _ | .punct _ _, .literal _ | .punct _ _, .group _ _
  | .literal _, .ident _ _ | .literal _, .lifetime _ | .literal _, .punct _ _
  | .literal _, .group _ _ | .group _ _, .ident _ _ | .group _ _, .lifetime _
  | .group _ _, .punct _ _ | .group _ _, .literal _ => isFalse (by simp)

def decEqTokens : (ts us : List Token) → Decidable (ts = us)
  | [], [] => isTrue rfl
  | t :: ts, u :: us =>
    match Token.decEq t u, decEqTokens ts us with
    | isTrue h, isTrue h' => isTrue (by rw [h, h'])
    | isFalse h, _ => isFalse (by simp [h])
    | _, isFalse h => isFalse (by simp [h])
  | [], _ :: _ => isFalse (by simp)
  | _ :: _, [] => isFalse (by simp)

end

instance : DecidableEq Token := Token.decEq

mutual

/-- Equality of trees is decidable. -/
def ParseTree.decEq {L : Type} [DecidableEq L] : (a b : ParseTree L) → Decidable (a = b)
  | .leaf token, .leaf token' => decidable_of_iff (token = token') (by simp)
  | .group d children, .group d' children' =>
    match decEqTrees children children' with
    | isTrue h => decidable_of_iff (d = d') (by simp [h])
    | isFalse h => isFalse (by simp [h])
  | .node label children, .node label' children' =>
    match decEqTrees children children' with
    | isTrue h => decidable_of_iff (label = label') (by simp [h])
    | isFalse h => isFalse (by simp [h])
  | .leaf _, .group _ _ | .leaf _, .node _ _ | .group _ _, .leaf _ | .group _ _, .node _ _
  | .node _ _, .leaf _ | .node _ _, .group _ _ => isFalse (by simp)

def decEqTrees {L : Type} [DecidableEq L] : (as bs : List (ParseTree L)) → Decidable (as = bs)
  | [], [] => isTrue rfl
  | a :: as, b :: bs =>
    match ParseTree.decEq a b, decEqTrees as bs with
    | isTrue h, isTrue h' => isTrue (by rw [h, h'])
    | isFalse h, _ => isFalse (by simp [h])
    | _, isFalse h => isFalse (by simp [h])
  | [], _ :: _ => isFalse (by simp)
  | _ :: _, [] => isFalse (by simp)

end

instance {L : Type} [DecidableEq L] : DecidableEq (ParseTree L) := ParseTree.decEq

deriving instance DecidableEq for Parsed, Match

instance {rules : Rule → List Token → Match Part} {p : P} {ts rest : List Token} {trees : Trees} :
    Decidable (Reads rules p ts trees rest) := inferInstanceAs (Decidable (_ = _))

/-! ## Simple trees -/

def isNumberText (text : String) : Bool :=
  !text.toList.isEmpty && text.toList.all decimalDigits.contains

theorem isLiteral_of_isNumberText {text : String} (h : isNumberText text = true) :
    IsLiteral text := by
  obtain ⟨hne, hdigits⟩ : text.toList ≠ [] ∧ ∀ c ∈ text.toList, c ∈ decimalDigits := by
    simpa [isNumberText] using h
  exact isLiteral_of_digits hne hdigits

mutual

/-- Whether a token is a word, a lifetime, punctuation, a number or a group of such tokens. -/
def Token.isSimple : Token → Bool
  | .ident text _ => decide (IsWord text)
  | .lifetime name => decide (IsWord name)
  | .punct ch _ => plainMarks.contains ch || ch == '/'
  | .literal text => isNumberText text
  | .group _ content => areSimpleTokens content

/-- Whether tokens are simple, with each joint mark before what it can be joint with. -/
def areSimpleTokens : List Token → Bool
  | [] => true
  | t :: rest => t.isSimple && (!t.isJoint || rest.head?.any (joins t)) && areSimpleTokens rest

end

theorem joins_unlined (t u : Token) : joins t.unlined u.unlined = joins t u := by
  cases t <;> cases u <;> rfl

mutual

theorem Token.isPlain_of_isSimple (t : Token) (h : t.isSimple = true) : t.unlined.IsPlain := by
  match t with
  | .ident text line => exact ⟨of_decide_eq_true h, rfl⟩
  | .lifetime name =>
    have hword : IsWord name := of_decide_eq_true h
    exact hword
  | .punct ch joint =>
    exact (Bool.or_eq_true_iff.mp h).imp List.contains_iff_mem.mp eq_of_beq
  | .literal text => exact isLiteral_of_isNumberText h
  | .group d content => exact arePlain_of_areSimpleTokens content h

/-- Simple tokens can be read from their text. -/
theorem arePlain_of_areSimpleTokens (ts : List Token) (h : areSimpleTokens ts = true) :
    ArePlain (unlinedTokens ts) := by
  match ts with
  | [] => trivial
  | t :: rest =>
    obtain ⟨⟨ht, hjoint⟩, hrest⟩ : (t.isSimple = true ∧
        (t.isJoint = false ∨ rest.head?.any (joins t) = true)) ∧ areSimpleTokens rest = true := by
      simpa [areSimpleTokens] using h
    refine ⟨t.isPlain_of_isSimple ht, fun hj => ?_, arePlain_of_areSimpleTokens rest hrest⟩
    rw [Token.isJoint_unlined] at hj
    have hjoins := hjoint.resolve_left (by simp [hj])
    cases rest with
    | nil => cases hjoins
    | cons u rest => exact (joins_unlined t u).trans hjoins

end

/-- Whether what fills a group is simple and comes back when its own tokens are read. -/
def readsAgain (p : P) (trees : Trees) : Bool :=
  let tokens := tokensOf (unlinedTrees trees)
  areSimpleTokens (tokensOf trees) &&
    decide (Reads (language.read (64 * (sizeOfTokens tokens + 1))) p tokens (unlinedTrees trees) [])

theorem fillsAgain_of_readsAgain {p : P} {trees : Trees} (h : readsAgain p trees = true) :
    FillsAgain p trees := by
  obtain ⟨hsimple, hreads⟩ := Bool.and_eq_true_iff.mp h
  refine ⟨?_, of_decide_eq_true hreads⟩
  rw [tokensOf_unlinedTrees]
  exact arePlain_of_areSimpleTokens _ hsimple

mutual

/-- Whether a tree is legible and has no literals but numbers. What is no type inside it is read to
see that it comes back. -/
def ParseTree.isSimple : ParseTree Part → Bool
  | .leaf token => token.isSimple
  | .group .brace children => readsAgain (innerAttributes ++ call .statements) children
  | .group .paren children => !children.any (isWord "mut") && areSimple children
  | .group .bracket children => areSimple children
  | .node .attribute (.leaf (.punct '#' false) :: .group .bracket content :: []) =>
    readsAgain attributeContent content
  | .node .attribute _ => false
  | .node .sliceType [.group .bracket (element :: .leaf (.punct ';' _) :: length)] =>
    element.isSimple && readsAgain (call (.expression true)) length
  | .node .otherType (.leaf (.ident "dyn" _) :: .leaf (.punct '*' _) :: _) => false
  | .node .macroType (.node .boundType _ :: _) => false
  | .node .bound children => !children.all isLeaf && areSimple children
  | .node .constMark _ => false
  | .node _ children => areSimple children

def areSimple : Trees → Bool
  | [] => true
  | tree :: rest => tree.isSimple && areSimple rest

end

theorem Token.isLegible_of_isSimple {t : Token} (h : t.isSimple = true) : t.IsLegible := by
  cases t with
  | ident text line =>
    have hword : IsWord text := of_decide_eq_true h
    exact hword
  | lifetime name =>
    have hword : IsWord name := of_decide_eq_true h
    exact hword
  | punct ch joint => exact (Token.punct ch joint).isPlain_of_isSimple h
  | literal => exact isLiteral_of_isNumberText h
  | group d content => exact arePlain_of_areSimpleTokens content h

mutual

/-- A simple tree is legible. -/
theorem isLegible_of_isSimple (tree : ParseTree Part) (h : tree.isSimple = true) :
    tree.IsLegible := by
  unfold ParseTree.isSimple at h
  split at h
  · exact Token.isLegible_of_isSimple h
  · exact fillsAgain_of_readsAgain h
  · next children =>
    obtain ⟨hreceiver, hchildren⟩ : children.any (isWord "mut") = false ∧
        areSimple children = true := by simpa using h
    exact ⟨hreceiver, areLegible_of_areSimple children hchildren⟩
  · next children => exact areLegible_of_areSimple children h
  · next content => exact ⟨content, rfl, fillsAgain_of_readsAgain h⟩
  · cases h
  · next element joint length =>
    obtain ⟨helement, hlength⟩ := Bool.and_eq_true_iff.mp h
    exact ⟨isLegible_of_isSimple element helement, fillsAgain_of_readsAgain hlength⟩
  · cases h
  · cases h
  · next children =>
    obtain ⟨hkept, hchildren⟩ : children.all isLeaf = false ∧ areSimple children = true := by
      simpa using h
    exact ⟨hkept, areLegible_of_areSimple children hchildren⟩
  · cases h
  · next label children _ hattribute hslice hdyn hmacro hbound hconst =>
    rw [ParseTree.IsLegible.eq_11 label children hattribute hslice hdyn hmacro hbound hconst]
    exact areLegible_of_areSimple children h

theorem areLegible_of_areSimple (trees : Trees) (h : areSimple trees = true) :
    AreLegible trees := by
  match trees with
  | [] => trivial
  | tree :: rest =>
    obtain ⟨htree, hrest⟩ : tree.isSimple = true ∧ areSimple rest = true := by
      simpa [areSimple] using h
    exact ⟨isLegible_of_isSimple tree htree, areLegible_of_areSimple rest hrest⟩

end

end DaoGen.Code
