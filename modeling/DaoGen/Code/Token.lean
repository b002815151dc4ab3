/-!
# Tokens of program text

Program text is read into token trees and generated as token trees. `textOf` writes a sequence of
tokens with one space between two neighbours, except after punctuation that is joint with what
follows it, so a multi-character operator stays together.
-/
namespace DaoGen.Code

/-- The brackets around a group of tokens. -/
inductive Delimiter where
  | paren
  | bracket
  | brace
  deriving DecidableEq, Repr

/-- One token tree. An identifier keeps the line it was read on, 0 if it was not read. -/
inductive Token where
  | ident (text : String) (line : Nat := 0)
  | lifetime (name : String)
  | punct (ch : Char) (joint : Bool := false)
  | literal (text : String)
  | group (delimiter : Delimiter) (content : List Token)
  deriving Repr, Inhabited

/-- Punctuation that belongs together with the token after it. -/
def Token.isJoint : Token → Bool
  | .punct _ joint => joint
  | _ => false

/-- Groups in braces have a space inside each brace, or a single one if they are empty. -/
def Delimiter.surround (content : String) (isEmpty : Bool) : Delimiter → String
  | .paren => "(" ++ content ++ ")"
  | .bracket => "[" ++ content ++ "]"
  | .brace => if isEmpty then "\x7b \x7d" else "\x7b " ++ content ++ " \x7d"

mutual

/-- The text of one token. -/
def Token.text : Token → String
  | .ident text _ => text
  | .lifetime name => "'" ++ name
  | .punct ch _ => String.singleton ch
  | .literal text => text
  | .group d content => d.surround (textOf content) content.isEmpty

/-- The text of a sequence of tokens. -/
def textOf : List Token → String
  | [] => ""
  | [t] => t.text
  | t :: u :: rest => t.text ++ ((if t.isJoint then "" else " ") ++ textOf (u :: rest))

end

@[simp] theorem textOf_nil : textOf [] = "" := by simp [textOf]

@[simp] theorem textOf_singleton (t : Token) : textOf [t] = t.text := by simp [textOf]

mutual

/-- The number of tokens in a tree, the tree itself included. -/
def Token.size : Token → Nat
  | .group _ content => sizeOfTokens content + 1
  | _ => 1

/-- The number of tokens in a sequence of trees. -/
def sizeOfTokens : List Token → Nat
  | [] => 0
  | t :: rest => t.size + sizeOfTokens rest

end

mutual

/-- Whether a test holds of a token or of one inside it. -/
def Token.anyLeaf (p : Token → Bool) : Token → Bool
  | .group _ content => anyLeafOf p content
  | .ident text line => p (.ident text line)
  | .lifetime name => p (.lifetime name)
  | .punct ch joint => p (.punct ch joint)
  | .literal text => p (.literal text)

/-- Whether a test holds of some token that is not a group, at any depth. -/
def anyLeafOf (p : Token → Bool) : List Token → Bool
  | [] => false
  | t :: rest => t.anyLeaf p || anyLeafOf p rest

end

end DaoGen.Code
