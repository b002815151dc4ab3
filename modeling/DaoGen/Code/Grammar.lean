import DaoGen.Code.Token

/-!
# Grammars over tokens

A grammar is a table that gives each rule a production. A production reads token trees from the
front and never goes back: where it has a choice, it looks at the tokens ahead and decides. So the
first thing that does not fit is the fault of the whole text.

What was read is a sequence of trees, whose nodes carry the labels that readers look for. Their
tokens are those of the text as the grammar writes it: an operator is one unit, and a production
can give what it read another shape.

Rules call each other, so `Production.run` needs a bound on how deeply they are nested.
`Match.exhausted` says that the bound was too small, which is neither a match nor a failure; a
larger bound changes no other answer.
-/
namespace DaoGen.Code

/-- What was read: tokens, groups whose inside was read too, and labelled parts. -/
inductive ParseTree (L : Type) where
  | leaf (token : Token)
  | group (delimiter : Delimiter) (children : List (ParseTree L))
  | node (label : L) (children : List (ParseTree L))
  deriving Repr, Inhabited

mutual

/-- The tokens of a tree, before some others. -/
def ParseTree.tokensBefore {L : Type} : ParseTree L → List Token → List Token
  | .leaf token, rest => token :: rest
  | .group d children, rest => .group d (tokensBefore children []) :: rest
  | .node _ children, rest => tokensBefore children rest

/-- The tokens of a sequence of trees, before some others. -/
def tokensBefore {L : Type} : List (ParseTree L) → List Token → List Token
  | [], rest => rest
  | tree :: trees, rest => tree.tokensBefore (tokensBefore trees rest)

end

/-- The tokens of a tree. -/
def ParseTree.tokens {L : Type} (tree : ParseTree L) : List Token := tree.tokensBefore []

/-- The tokens of a sequence of trees. -/
def tokensOf {L : Type} (trees : List (ParseTree L)) : List Token := tokensBefore trees []

mutual

theorem ParseTree.tokensBefore_eq {L : Type} (tree : ParseTree L) (rest : List Token) :
    tree.tokensBefore rest = tree.tokens ++ rest := by
  cases tree with
  | leaf token => simp [ParseTree.tokens, ParseTree.tokensBefore]
  | group d children => simp [ParseTree.tokens, ParseTree.tokensBefore]
  | node label children =>
    simp only [ParseTree.tokens, ParseTree.tokensBefore]
    exact tokensBefore_eq children rest

theorem tokensBefore_eq {L : Type} (trees : List (ParseTree L)) (rest : List Token) :
    tokensBefore trees rest = tokensOf trees ++ rest := by
  cases trees with
  | nil => simp [tokensOf, tokensBefore]
  | cons tree trees =>
    simp only [tokensOf, tokensBefore]
    rw [ParseTree.tokensBefore_eq tree, ParseTree.tokensBefore_eq tree (tokensBefore trees []),
      tokensBefore_eq trees rest]
    simp [tokensOf]

end

@[simp] theorem tokensOf_nil {L : Type} : tokensOf ([] : List (ParseTree L)) = [] := by
  simp [tokensOf, tokensBefore]

@[simp] theorem tokensOf_cons {L : Type} (tree : ParseTree L) (trees : List (ParseTree L)) :
    tokensOf (tree :: trees) = tree.tokens ++ tokensOf trees := by
  simp [tokensOf, tokensBefore, ParseTree.tokensBefore_eq]

@[simp] theorem tokensOf_append {L : Type} (a b : List (ParseTree L)) :
    tokensOf (a ++ b) = tokensOf a ++ tokensOf b := by
  induction a with
  | nil => simp
  | cons tree trees ih => simp [ih]

@[simp] theorem ParseTree.tokens_leaf {L : Type} (token : Token) :
    (ParseTree.leaf token : ParseTree L).tokens = [token] := by
  simp [ParseTree.tokens, ParseTree.tokensBefore]

@[simp] theorem ParseTree.tokens_group {L : Type} (d : Delimiter) (children : List (ParseTree L)) :
    (ParseTree.group d children).tokens = [.group d (tokensOf children)] := by
  simp [ParseTree.tokens, ParseTree.tokensBefore, tokensOf]

@[simp] theorem ParseTree.tokens_node {L : Type} (label : L) (children : List (ParseTree L)) :
    (ParseTree.node label children).tokens = tokensOf children := by
  simp [ParseTree.tokens, ParseTree.tokensBefore, tokensOf]

/-! ## Faults -/

/-- Why tokens do not follow a grammar. -/
inductive GrammarFault where
  /-- none of some things stands where one has to; `atEnd` says that nothing stands there and that
  the end is worth a mention -/
  | expected (things : List String) (atEnd : Bool)
  /-- a reserved word stands where a name has to -/
  | reserved (word : String)
  /-- something stands in a group, or at the top level, after all that can stand there -/
  | leftover (delimiter : Option Delimiter)
  /-- what was read breaks a rule of its own -/
  | refused (reason : String)
  /-- rules are nested more deeply than the bound allows -/
  | tooDeep
  deriving DecidableEq, Repr

namespace GrammarFault

/-- The character that closes a group. -/
def closing : Delimiter → String
  | .paren => ")"
  | .bracket => "]"
  | .brace => "\x7d"

/-- The wording of a fault. -/
def message : GrammarFault → String
  | .expected things atEnd =>
    let found := if atEnd then "unexpected end of input" else "unexpected token"
    let start := if atEnd then found ++ ", " else ""
    match things with
    | [] => found
    | [thing] => start ++ "expected " ++ thing
    | [first, second] => start ++ "expected " ++ first ++ " or " ++ second
    | things => start ++ "expected one of: " ++ ", ".intercalate things
  | .reserved word => "expected identifier, found keyword `" ++ word ++ "`"
  | .leftover none => "unexpected token"
  | .leftover (some d) => "unexpected token, expected `" ++ closing d ++ "`"
  | .refused reason => reason
  | .tooDeep => "nested too deeply"

end GrammarFault

/-! ## Productions -/

/-- A test of the tokens ahead. -/
abbrev Look := List Token → Bool

/-- A way to split tokens off the front, as they are to be written. What comes after them is left
as it is. -/
structure Scan where
  split : List Token → Except GrammarFault (List Token × List Token)
  isSuffix {tokens taken rest : List Token} : split tokens = .ok (taken, rest) → rest <:+ tokens

/-- A production over token trees that calls rules from `R` and labels parts from `L`. -/
inductive Production (R L : Type) where
  /-- nothing at all -/
  | empty
  /-- tokens from the front -/
  | take (scan : Scan)
  /-- a group whose inside is read; what is then left over in it is reported at the end -/
  | enclosed (d : Delimiter) (inside : Production R L)
  | call (r : R)
  /-- one production and then the one that follows from what the first has read -/
  | bind (first : Production R L) (next : List (ParseTree L) → Production R L)
  /-- the production that the tokens ahead call for -/
  | choose (look : List Token → Production R L)
  /-- a production as long as a test of the tokens ahead holds -/
  | repeated (look : Look) (item : Production R L)
  /-- a production whose trees get another shape; the shape may depend on the tokens before and
  after what was read -/
  | shaped (inside : Production R L)
      (shape : List Token → List Token → List (ParseTree L) → List (ParseTree L))

namespace Production

variable {R L : Type}

instance : Append (Production R L) := ⟨fun first second => .bind first fun _ => second⟩

/-- What was read, as one labelled part. -/
def labelled (label : L) (inside : Production R L) : Production R L :=
  .shaped inside fun _ _ trees => [.node label trees]

/-- What was read, after a change. -/
def edited (inside : Production R L) (edit : List (ParseTree L) → List (ParseTree L)) :
    Production R L :=
  .shaped inside fun _ _ trees => edit trees

/-- The tokens that were read, as they were written. -/
def written (before after : List Token) : List (ParseTree L) :=
  (before.take (before.length - after.length)).map .leaf

/-- What was read, token by token as it was written, if the trees call for it. -/
def asWritten (inside : Production R L) (applies : List (ParseTree L) → Bool) : Production R L :=
  .shaped inside fun before after trees => if applies trees then written before after else trees

/-- One of two productions, by a test of the tokens ahead. -/
def either (look : Look) (yes no : Production R L) : Production R L :=
  .choose fun tokens => if look tokens then yes else no

/-- A production where a test of the tokens ahead holds, and nothing elsewhere. -/
def given (look : Look) (inside : Production R L) : Production R L := either look inside .empty

end Production

/-! ## Reading tokens -/

/-- What a production has read: its trees, the tokens after them, and the delimiter of the first
group that something was left over in. -/
structure Parsed (L : Type) where
  trees : List (ParseTree L)
  rest : List Token
  leftover : Option Delimiter := none
  deriving Repr

/-- What was read by one production and then by another. -/
def Parsed.followedBy {L : Type} (first second : Parsed L) : Parsed L where
  trees := first.trees ++ second.trees
  rest := second.rest
  leftover := first.leftover <|> second.leftover

/-- The answer of reading a production. -/
inductive Match (L : Type) where
  | success (parsed : Parsed L)
  | failure (fault : GrammarFault)
  | exhausted
  deriving Repr

/-- The answer of going on after a success. -/
def Match.andThen {L : Type} (first : Match L) (next : Parsed L → Match L) : Match L :=
  match first with
  | .success parsed =>
    match next parsed with
    | .success more => .success (parsed.followedBy more)
    | other => other
  | other => other

/-- What a group is called that is missing. -/
def Delimiter.description : Delimiter → String
  | .paren => "parentheses"
  | .bracket => "square brackets"
  | .brace => "curly braces"

/-- The tokens between brackets of the given kind, and the tokens after them. -/
def openGroup (d : Delimiter) : List Token → Except GrammarFault (List Token × List Token)
  | .group e content :: rest =>
    if d = e then .ok (content, rest) else .error (.expected [d.description] false)
  | tokens => .error (.expected [d.description] tokens.isEmpty)

/-- Reads an item as long as the test holds and the item consumes tokens, at most `fuel` times. -/
def repeatMatch {L : Type} (look : Look) (item : List Token → Match L) :
    Nat → List Token → Match L
  | 0, tokens => .success { trees := [], rest := tokens }
  | fuel + 1, tokens =>
    if look tokens then
      (item tokens).andThen fun parsed =>
        if parsed.rest.length < tokens.length then repeatMatch look item fuel parsed.rest
        else .success { trees := [], rest := parsed.rest }
    else .success { trees := [], rest := tokens }

/-- Reads a production from the front of the tokens, given how rules are read. -/
def Production.run {R L : Type} (rules : R → List Token → Match L) :
    Production R L → List Token → Match L
  | .empty, tokens => .success { trees := [], rest := tokens }
  | .take scan, tokens =>
    match scan.split tokens with
    | .ok (taken, rest) => .success { trees := taken.map .leaf, rest }
    | .error fault => .failure fault
  | .enclosed d inside, tokens =>
    match openGroup d tokens with
    | .error fault => .failure fault
    | .ok (content, rest) =>
      match inside.run rules content with
      | .success parsed =>
        let leftover := parsed.leftover <|> if parsed.rest.isEmpty then none else some d
        .success { trees := [.group d parsed.trees], rest, leftover }
      | other => other
  | .call r, tokens => rules r tokens
  | .bind first next, tokens =>
    (first.run rules tokens).andThen fun parsed => (next parsed.trees).run rules parsed.rest
  | .choose look, tokens => (look tokens).run rules tokens
  | .repeated look item, tokens => repeatMatch look (item.run rules) tokens.length tokens
  | .shaped inside shape, tokens =>
    match inside.run rules tokens with
    | .success parsed =>
      .success { parsed with trees := shape tokens parsed.rest parsed.trees }
    | other => other

/-- A grammar gives each rule its production. -/
abbrev Grammar (R L : Type) := R → Production R L

namespace Grammar

variable {R L : Type}

/-- Reads a rule from the front of the tokens, with rules nested at most `depth` deep. -/
def read (g : Grammar R L) : Nat → R → List Token → Match L
  | 0, _, _ => .exhausted
  | depth + 1, r, tokens => (g r).run (g.read depth) tokens

/-- A depth that suffices where no more than 64 rules are entered without consuming a token. -/
def depthFor (tokens : List Token) : Nat := 64 * (sizeOfTokens tokens + 2)

/-- The trees of a rule that takes all the tokens, or the first fault. What is left over counts
only where nothing else is wrong. -/
def parse (g : Grammar R L) (r : R) (tokens : List Token) :
    Except GrammarFault (List (ParseTree L)) :=
  match g.read (depthFor tokens) r tokens with
  | .exhausted => .error .tooDeep
  | .failure fault => .error fault
  | .success parsed =>
    match parsed.leftover, parsed.rest with
    | some d, _ => .error (.leftover (some d))
    | none, _ :: _ => .error (.leftover none)
    | none, [] => .ok parsed.trees

end Grammar

end DaoGen.Code
