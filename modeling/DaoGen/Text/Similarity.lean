/-!
# Similarity of names

The Jaro–Winkler similarity of two names as an exact fraction. A misspelt field name is answered
with the known name that is most similar to it.
-/
namespace DaoGen.Text

/-- A fraction of natural numbers. -/
structure Fraction where
  num : Nat
  den : Nat
  deriving DecidableEq, Repr

namespace Fraction

/-- Strict order of fractions with positive denominators. -/
def lt (a b : Fraction) : Bool := a.num * b.den < b.num * a.den

end Fraction

/-- Looks for `c` in the window of positions from `low` to below `high` that are still free, and
takes the first. -/
def takeMatch (c : Char) (low high : Nat) :
    Nat → List (Char × Bool) → Option (List (Char × Bool))
  | _, [] => none
  | i, (d, taken) :: rest =>
    if low ≤ i ∧ i < high ∧ d = c ∧ taken = false then some ((d, true) :: rest)
    else (takeMatch c low high (i + 1) rest).map ((d, taken) :: ·)

/-- Pairs the characters of the first name, from position `i` on, with free ones of the second;
gives the paired characters of the first and the second with its marks. -/
def pairUp (range : Nat) :
    Nat → List Char → List (Char × Bool) → List Char × List (Char × Bool)
  | _, [], marks => ([], marks)
  | i, c :: cs, marks =>
    match takeMatch c (i - range) (i + range + 1) 0 marks with
    | some marks =>
      let (paired, marks) := pairUp range (i + 1) cs marks
      (c :: paired, marks)
    | none => pairUp range (i + 1) cs marks

/-- Jaro similarity: the mean of the two shares of paired characters and of the share of pairs in
the same order. -/
def jaro (a b : List Char) : Fraction :=
  if a.isEmpty && b.isEmpty then ⟨1, 1⟩
  else
    let range := max a.length b.length / 2 - 1
    let (first, marks) := pairUp range 0 a (b.map (·, false))
    let second := (marks.filter (·.2)).map (·.1)
    let paired := first.length
    let swapped := ((first.zip second).countP fun (x, y) => x != y) / 2
    if paired = 0 then ⟨0, 1⟩
    else
      ⟨paired * b.length * paired + paired * a.length * paired +
          (paired - swapped) * a.length * b.length,
        3 * a.length * b.length * paired⟩

/-- Jaro similarity raised, above seven tenths, by a tenth of the rest for each of the first four
characters that agree. -/
def similarity (a b : String) : Fraction :=
  let sim := jaro a.toList b.toList
  if Fraction.lt ⟨7, 10⟩ sim then
    let common := (((a.toList.take 4).zip b.toList).takeWhile fun (x, y) => x == y).length
    ⟨10 * sim.num + common * (sim.den - sim.num), 10 * sim.den⟩
  else sim

/-- The known name most similar to the written one, if its similarity is above eight tenths; of
equals, the first. -/
def nearest? (written : String) (known : List String) : Option String :=
  let best := known.foldl (fun best name =>
    let score := similarity written name
    if Fraction.lt ⟨8, 10⟩ score && best.all (fun (top, _) => Fraction.lt top score) then
      some (score, name)
    else best) (none : Option (Fraction × String))
  best.map (·.2)

end DaoGen.Text
