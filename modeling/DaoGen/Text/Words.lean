import DaoGen.Text.Cluster
import DaoGen.Text.LetterCase

/-!
# Words of a name

A name is cut at `_`, `-` and spaces, which are dropped, and between two clusters where the case
changes from lower to upper, where a letter meets a digit on either side, and before the last
capital of an acronym that a lowercase letter follows. Nothing else is dropped: two separators in
a row have an empty word between them.
-/
namespace DaoGen.Text

/-- The classes of clusters that decide where words end. -/
inductive ClusterKind where
  | separator
  | digit
  | upper
  | lower
  | other
  deriving DecidableEq, Repr

/-- A cluster is a letter of one case if the two cases differ and it has that case. -/
def ClusterKind.of (cluster : List Char) : ClusterKind :=
  if cluster = ['_'] ∨ cluster = ['-'] ∨ cluster = [' '] then .separator
  else if cluster.all Char.isDigit then .digit
  else
    let up := upperList cluster
    let low := lowerList cluster
    if up = low then .other
    else if cluster = up then .upper
    else if cluster = low then .lower
    else .other

/-- Whether a word ends after a cluster of the first kind, given the kinds that follow. -/
def endsWord : ClusterKind → List ClusterKind → Bool
  | .lower, next :: _ => next = .upper || next = .digit
  | .digit, next :: _ => next = .upper || next = .lower
  | .upper, next :: rest => next = .digit || (next = .upper && rest.head? = some .lower)
  | _, _ => false

/-- Cuts clusters into words, the first of which already holds `current`. -/
def wordsFrom (current : List Char) : List (List Char) → List (List Char)
  | [] => [current]
  | cluster :: rest =>
    if ClusterKind.of cluster = .separator then current :: wordsFrom [] rest
    else if endsWord (.of cluster) ((rest.take 2).map .of) then
      (current ++ cluster) :: wordsFrom [] rest
    else wordsFrom (current ++ cluster) rest

/-- The words of a name. -/
def wordsOf (s : String) : List (List Char) := wordsFrom [] (clusters s.toList)

/-- A word with its first cluster in upper case and the rest in lower case. -/
def capitalize (word : List Char) : List Char :=
  match clusters word with
  | [] => []
  | first :: rest => upperList first ++ lowerList rest.flatten

/-- Lowercase words joined by underscores, as in `person_dao`. -/
def snakeCase (s : String) : String :=
  String.ofList (['_'].intercalate ((wordsOf s).map lowerList))

/-- Capitalized words, as in `PersonDao`. -/
def pascalCase (s : String) : String :=
  String.ofList ((wordsOf s).map capitalize).flatten

/-- Capitalized words after a lowercase first one, as in `personDao`. -/
def camelCase (s : String) : String :=
  match wordsOf s with
  | [] => ""
  | first :: rest => String.ofList (lowerList first ++ (rest.map capitalize).flatten)

end DaoGen.Text
