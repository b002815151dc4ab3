import DaoGen.Text.Identifier.Table

/-!
# Identifiers as text

An identifier begins with a letter or an underscore and goes on with letters, digits, marks and
underscores, in the sense of the Unicode properties `XID_Start` and `XID_Continue`.
-/
namespace DaoGen.Text

/-- A character that can begin an identifier. -/
def isIdentifierStart (c : Char) : Bool :=
  if c.toNat < 0x80 then c.isAlpha || c == '_' else identifierStarts.contains c

/-- A character that can follow in an identifier. -/
def isIdentifierContinue (c : Char) : Bool :=
  if c.toNat < 0x80 then c.isAlphanum || c == '_' else identifierContinuations.contains c

/-- Text of the form of an identifier; reserved words are among them. -/
def isIdentifierText : List Char → Bool
  | [] => false
  | c :: cs => isIdentifierStart c && cs.all isIdentifierContinue

end DaoGen.Text
