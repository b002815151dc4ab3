import DaoGen.Code.Grammar
import DaoGen.Code.Language.Rule

/-!
# Basic productions

The productions of single tokens, of lists, and of a choice by the tokens ahead, with the tests of
trees that go with them.
-/
namespace DaoGen.Code.Language

/-- The productions of the grammar of source files. -/
abbrev P := Production Rule Part

/-- The trees of what was read. -/
abbrev Trees := List (ParseTree Part)

def isNode (label : Part) : ParseTree Part → Bool
  | .node l _ => l == label
  | _ => false

/-- Whether a tree is a single mark of punctuation. -/
def isMark (ch : Char) : ParseTree Part → Bool
  | .leaf (.punct c _) => c == ch
  | _ => false

def isWord (word : String) : ParseTree Part → Bool
  | .leaf (.ident text _) => text == word
  | _ => false

/-- The kind of an expression: that of its outermost part, which is the last one. -/
def kindOf? (trees : Trees) : Option ExpressionKind :=
  trees.foldl (fun found tree =>
    match tree with
    | .node (.expression kind) _ => some kind
    | _ => found) none

/-- What an expression is as the left operand of an operator. -/
def operandOf (trees : Trees) : Operand :=
  match kindOf? trees with
  | some .range => .range
  | some .comparison => .comparison
  | _ => .other

/-! ## Faults -/

def fail (fault : GrammarFault) : P := .take ⟨fun _ => .error fault, nofun⟩

/-- Breaks off for a reason other than the next token. -/
def refuse (reason : String) : P := fail (.refused reason)

/-- None of some things is ahead. -/
def missing (things : List String) : P :=
  .take ⟨fun tokens => .error (.expected things tokens.isEmpty), nofun⟩

/-! ## Single tokens -/

def quoted (text : String) : String := "`" ++ text ++ "`"

def op (text : String) : P :=
  .take {
    split tokens :=
      match takeOperator text tokens with
      | some split => .ok split
      | none => .error (.expected [quoted text] false)
    isSuffix h := by
      split at h <;> cases h
      next htake => exact takeCharacters_isSuffix htake }

def word (text : String) : P :=
  .take {
    split
      | .ident w line :: rest =>
        if w = text then .ok ([.ident w line], rest) else .error (.expected [quoted text] false)
      | tokens => .error (.expected [quoted text] tokens.isEmpty)
    isSuffix h := by
      split at h
      · split at h <;> cases h
        exact List.suffix_cons _ _
      · cases h }

/-- Why no name is ahead. -/
def nameFault : List Token → GrammarFault
  | .ident text _ :: _ => .reserved text
  | tokens => .expected ["identifier"] tokens.isEmpty

def name : P :=
  .take {
    split
      | .ident text line :: rest =>
        if isName text then .ok ([.ident text line], rest) else .error (.reserved text)
      | tokens => .error (nameFault tokens)
    isSuffix h := by
      split at h
      · split at h <;> cases h
        exact List.suffix_cons _ _
      · cases h }

def anyName : P :=
  .take {
    split
      | .ident text line :: rest => .ok ([.ident text line], rest)
      | tokens => .error (.expected ["ident"] tokens.isEmpty)
    isSuffix h := by
      split at h <;> cases h
      exact List.suffix_cons _ _ }

def lifetime : P :=
  .take {
    split
      | .lifetime name :: rest => .ok ([.lifetime name], rest)
      | tokens => .error (.expected ["lifetime"] tokens.isEmpty)
    isSuffix h := by
      split at h <;> cases h
      exact List.suffix_cons _ _ }

def literal : P :=
  .take {
    split tokens :=
      match takeLiteral tokens with
      | some split => .ok split
      | none => .error (.expected ["literal"] tokens.isEmpty)
    isSuffix h := by
      split at h <;> cases h
      next htake => exact takeLiteral_isSuffix htake }

/-- A group whose inside is not read. -/
def rawGroup : P :=
  .take {
    split
      | .group d content :: rest => .ok ([.group d content], rest)
      | tokens => .error (.expected ["delimiter"] tokens.isEmpty)
    isSuffix h := by
      split at h <;> cases h
      exact List.suffix_cons _ _ }

/-- The largest position of a member. -/
def maxPosition : Nat := 4294967295

/-- The text of a position, from the text of an integer. -/
def positionText (text : String) : Except GrammarFault String :=
  match text.toList with
  | '-' :: cs =>
    match integerParts? cs with
    | some (_, []) => .error (.refused "invalid digit found in string")
    | some _ => .error (.refused "expected unsuffixed integer")
    | none => .error (.refused "expected integer literal")
  | cs =>
    match integerParts? cs with
    | some (value, []) =>
      if value ≤ maxPosition then .ok (toString value)
      else .error (.refused "number too large to fit in target type")
    | some _ => .error (.refused "expected unsuffixed integer")
    | none => .error (.refused "expected integer literal")

/-- The position of a member, in base 10. -/
def position : P :=
  .take {
    split tokens :=
      match takeLiteral tokens with
      | some (taken, rest) => do
        let text ← positionText (literalText taken)
        return ([.literal text], rest)
      | none => .error (.expected ["identifier or integer"] tokens.isEmpty)
    isSuffix h := by
      split at h
      · next taken rest htake =>
        cases htext : positionText (literalText taken) <;> rw [htext] at h <;> cases h
        exact takeLiteral_isSuffix htake
      · cases h }

/-! ## Groups -/

def parens (inside : P) : P := .enclosed .paren inside

def brackets (inside : P) : P := .enclosed .bracket inside

def braces (inside : P) : P := .enclosed .brace inside

/-! ## Choices -/

/-- Something that can stand ahead, and how it is called. -/
structure Choice where
  description : String
  ahead : Look

namespace Choice

def word (text : String) : Choice := ⟨quoted text, atWord text⟩

def op (text : String) : Choice := ⟨quoted text, atOp text⟩

def group (d : Delimiter) : Choice := ⟨d.description, atGroup d⟩

def name : Choice := ⟨"identifier", atName⟩

def lifetime : Choice := ⟨"lifetime", atLifetime⟩

def literal : Choice := ⟨"literal", atLiteral⟩

def string : Choice := ⟨"string literal", atString⟩

end Choice

/-- The first production whose test holds of the tokens ahead. -/
def select : List (Look × P) → P → P
  | [], otherwise => otherwise
  | (look, production) :: rest, otherwise => .either look production (select rest otherwise)

/-- Nothing that is allowed is ahead. A choice that is ahead, and was not taken for another
reason, is not among those that are missing. -/
def noneOf (choices : List Choice) : P :=
  .choose fun tokens =>
    missing ((choices.filter fun choice => !choice.ahead tokens).map Choice.description)

/-- One of some productions, each with what stands ahead where it is the one. -/
def oneOf (alternatives : List (Choice × P)) : P :=
  select (alternatives.map fun (choice, production) => (choice.ahead, production))
    (noneOf (alternatives.map (·.1)))

def call (rule : Rule) : P := .call rule

/-- A production unless the tokens end. -/
def unlessEnd (inside : P) : P := .either atEnd .empty inside

def optOp (text : String) : P := .given (atOp text) (op text)

def optWord (text : String) : P := .given (atWord text) (word text)

def optLifetime : P := .given atLifetime lifetime

/-! ## Lists -/

/-- Items with separators between them, up to where the test holds. A separator may end the
list. -/
def separated (stop : Look) (separator item : P) : P :=
  .repeated (fun tokens => !stop tokens) (item ++ .either stop .empty separator)

/-- Items with commas between them that fill a group. -/
def commaSeparated (item : P) : P := separated atEnd (op ",") item

/-- One item, and another one after each separator that is not the last. -/
def chained (separator : String) (stop : Look) (item : P) : P :=
  item ++ .repeated (fun tokens => atOp separator tokens && !stop (tokens.drop separator.length))
    (op separator ++ item) ++ optOp separator

/-- A chain of items, or nothing where the test holds at once. -/
def chainUpTo (separator : String) (stop : Look) (item : P) : P :=
  .either stop .empty (chained separator stop item)

/-! ## Blocks -/

/-- A block without attributes of its own. -/
def plainBlock : P := braces (call .statements)

end DaoGen.Code.Language
