/-!
# Sets of characters

A set of characters is given by the inclusive spans of its code points. The tables of Unicode
properties in this library are such sets.
-/
namespace DaoGen.Text

/-- A set of characters, as inclusive spans of code points. -/
structure CharSet where
  spans : List (Nat × Nat)

/-- Whether a character lies on one of the spans. -/
def CharSet.contains (s : CharSet) (c : Char) : Bool :=
  s.spans.any fun (lo, hi) => lo ≤ c.toNat && c.toNat ≤ hi

end DaoGen.Text
