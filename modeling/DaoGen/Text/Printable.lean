import DaoGen.Text.Printable.Table

/-!
# Printable characters

A string literal shows the characters that have a visible form of their own and escapes the
others.
-/
namespace DaoGen.Text

/-- Characters that have a visible form; the space is one. -/
def isPrintable (c : Char) : Bool :=
  if c.toNat < 0x80 then 0x20 ≤ c.toNat && c.toNat < 0x7f else !unprintables.contains c

/-- Marks that attach to the character before them. -/
def isExtendingMark (c : Char) : Bool :=
  0x80 ≤ c.toNat && extendingMarks.contains c

end DaoGen.Text
