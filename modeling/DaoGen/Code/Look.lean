import DaoGen.Code.Grammar
import DaoGen.Code.Literal

/-!
# Looking ahead

Tests of the tokens ahead, by which a grammar decides how to go on, and the readers of single
tokens that go with them. An operator of several characters needs each character but the last to
be joint with the next; whether the last one is joint does not matter, so `&` is ahead where `&&`
is.
-/
namespace DaoGen.Code

/-! ## Splitting tokens off the front -/

/-- Splits an operator off the front, given as its characters. -/
def takeCharacters : List Char → List Token → Option (List Token × List Token)
  | [], _ => none
  | [c], .punct ch _ :: rest => if c = ch then some ([.punct c], rest) else none
  | c :: d :: cs, .punct ch true :: rest =>
    if c = ch then
      (takeCharacters (d :: cs) rest).map fun (taken, rest) => (.punct c true :: taken, rest)
    else none
  | _, _ => none

theorem takeCharacters_isSuffix {cs : List Char} {tokens taken rest : List Token}
    (h : takeCharacters cs tokens = some (taken, rest)) : rest <:+ tokens := by
  fun_induction takeCharacters cs tokens generalizing taken with
  | case1 | case3 | case5 | case6 => cases h
  | case2 =>
    cases h
    exact List.suffix_cons _ _
  | case4 ch d cs later ih =>
    obtain ⟨⟨more, _⟩, hmore, heq⟩ := Option.map_eq_some_iff.mp h
    cases heq
    exact (ih hmore).trans (List.suffix_cons _ _)

/-- Splits an operator off the front. -/
def takeOperator (text : String) (tokens : List Token) : Option (List Token × List Token) :=
  takeCharacters text.toList tokens

/-- Splits a literal off the front: a literal token, one of the two truth words, or a number after
a sign. -/
def takeLiteral : List Token → Option (List Token × List Token)
  | .literal text :: rest => some ([.literal text], rest)
  | .ident text line :: rest =>
    if text = "true" ∨ text = "false" then some ([.ident text line], rest) else none
  | .punct '-' _ :: .literal text :: rest =>
    if isNumber text then some ([.punct '-', .literal text], rest) else none
  | _ => none

theorem takeLiteral_isSuffix {tokens taken rest : List Token}
    (h : takeLiteral tokens = some (taken, rest)) : rest <:+ tokens := by
  unfold takeLiteral at h
  split at h
  · cases h
    exact List.suffix_cons _ _
  · split at h <;> cases h
    exact List.suffix_cons _ _
  · split at h <;> cases h
    exact List.suffix_append [_, _] _
  · cases h

/-- What a literal that was split off denotes. -/
def literalText : List Token → String
  | [.punct '-' _, .literal text] => "-" ++ text
  | tokens => textOf tokens

/-! ## Tests -/

def atEnd : Look := fun tokens => tokens.isEmpty

def atOp (text : String) : Look := fun tokens => (takeOperator text tokens).isSome

def atLiteral : Look := fun tokens => (takeLiteral tokens).isSome

/-- Any identifier, reserved or not. -/
def atAnyName : Look
  | .ident _ _ :: _ => true
  | _ => false

/-- An identifier that is not reserved. -/
def atName : Look
  | .ident text _ :: _ => isName text
  | _ => false

def atWord (word : String) : Look
  | .ident text _ :: _ => text == word
  | _ => false

def atAnyWord (words : List String) : Look
  | .ident text _ :: _ => words.contains text
  | _ => false

def atLifetime : Look
  | .lifetime _ :: _ => true
  | _ => false

def atGroup (d : Delimiter) : Look
  | .group e _ :: _ => d == e
  | _ => false

def atAnyGroup : Look
  | .group _ _ :: _ => true
  | _ => false

/-- What a literal ahead denotes. -/
def literalAhead? (tokens : List Token) : Option LiteralValue :=
  (takeLiteral tokens).bind fun (taken, _) => LiteralValue.of? (literalText taken)

def atString : Look := fun tokens =>
  match literalAhead? tokens with
  | some (.string _) => true
  | _ => false

def atInteger : Look := fun tokens =>
  match literalAhead? tokens with
  | some (.integer _) => true
  | _ => false

def atFloat : Look := fun tokens => literalAhead? tokens == some .float

/-- A test of the tokens after the first one. -/
def second (look : Look) : Look := fun tokens => look (tokens.drop 1)

/-- A test of the tokens after the first two. -/
def third (look : Look) : Look := fun tokens => look (tokens.drop 2)

/-- A dot that is no part of a range. -/
def atDot : Look := fun tokens => atOp "." tokens && !atOp ".." tokens

/-- The exclamation mark of a call, as opposed to a comparison. -/
def atBang : Look := fun tokens => atOp "!" tokens && !atOp "!=" tokens

/-- A colon that is no part of a path. -/
def atColon : Look := fun tokens => atOp ":" tokens && !atOp "::" tokens

def atComma : Look := atOp ","

/-- The tokens after the attributes at the front. -/
def afterAttributes : List Token → List Token
  | .punct '#' _ :: .group .bracket _ :: rest => afterAttributes rest
  | tokens => tokens

end DaoGen.Code
