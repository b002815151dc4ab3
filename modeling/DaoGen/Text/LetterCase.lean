import DaoGen.Text.LetterCase.Table

/-!
# Letter case

Full case mappings of text: one character may become several, and a capital sigma at the end of
a word becomes a final sigma.
-/
namespace DaoGen.Text

/-- The image of one character under a table of runs and expansions. -/
def mapCase (expansions : List (Nat × List Nat)) (runs : List CaseRun) (c : Char) : List Char :=
  match expansions.lookup c.toNat with
  | some image => image.map Char.ofNat
  | none =>
    match runs.findSome? (·.map? c.toNat) with
    | some image => [Char.ofNat image]
    | none => [c]

/-- The lowercase form of one character, wherever it stands. -/
def lowerChar (c : Char) : List Char :=
  if c.toNat < 0x80 then [c.toLower] else mapCase lowerExpansions lowerRuns c

/-- The uppercase form of one character. -/
def upperChar (c : Char) : List Char :=
  if c.toNat < 0x80 then [c.toUpper] else mapCase upperExpansions upperRuns c

def isCased (c : Char) : Bool :=
  if c.toNat < 0x80 then c.isAlpha else casedLetters.contains c

def isCaseIgnorable (c : Char) : Bool :=
  if c.toNat < 0x80 then "'.:^`".toList.contains c else caseIgnorables.contains c

/-- Whether the first character that counts is a cased letter. -/
def meetsCased (cs : List Char) : Bool :=
  match cs.dropWhile isCaseIgnorable with
  | [] => false
  | c :: _ => isCased c

/-- Lowercases text that stands after `before`, which is given from its end backwards. -/
def lowerAfter (before : List Char) : List Char → List Char
  | [] => []
  | c :: cs =>
    let image :=
      if c = 'Σ' then [if meetsCased before && !meetsCased cs then 'ς' else 'σ'] else lowerChar c
    image ++ lowerAfter (c :: before) cs

def lowerList (cs : List Char) : List Char := lowerAfter [] cs

def upperList (cs : List Char) : List Char := cs.flatMap upperChar

/-- Text in lower case. -/
def lower (s : String) : String := String.ofList (lowerList s.toList)

/-- Text in upper case. -/
def upper (s : String) : String := String.ofList (upperList s.toList)

@[simp] theorem upperList_nil : upperList [] = [] := rfl

@[simp] theorem upperList_append (a b : List Char) :
    upperList (a ++ b) = upperList a ++ upperList b := by
  simp [upperList]

end DaoGen.Text
