/-!
# Blank characters

`isBlank` is the Unicode property `White_Space`. Names of targets, option values and the words
of a statement are delimited by it.
-/
namespace DaoGen.Text

/-- Tabs, line ends, spaces of every width and the line and paragraph separators. -/
def isBlank (c : Char) : Bool :=
  let n := c.toNat
  (9 ≤ n && n ≤ 13) || n == 0x20 || n == 0x85 || n == 0xa0 || n == 0x1680 ||
    (0x2000 ≤ n && n ≤ 0x200a) || n == 0x2028 || n == 0x2029 || n == 0x202f || n == 0x205f ||
    n == 0x3000

/-- Removes the characters of a class from both ends. -/
def trimBoth (p : Char → Bool) (cs : List Char) : List Char :=
  ((cs.dropWhile p).reverse.dropWhile p).reverse

/-- Text without the blanks at its ends. -/
def trim (s : String) : String :=
  String.ofList (trimBoth isBlank s.toList)

/-- The maximal runs of characters outside a class of delimiters, in order. -/
def runsOutside (isDelimiter : Char → Bool) : List Char → List (List Char)
  | [] => []
  | c :: cs =>
    let later := runsOutside isDelimiter cs
    if isDelimiter c then later else
      match cs, later with
      | d :: _, run :: runs => if isDelimiter d then [c] :: run :: runs else (c :: run) :: runs
      | _, runs => [c] :: runs

theorem runsOutside_cons_delimiter {p : Char → Bool} {c : Char} (h : p c) (cs : List Char) :
    runsOutside p (c :: cs) = runsOutside p cs := by
  simp [runsOutside, h]

end DaoGen.Text
