import DaoGen.Text.Blank
import DaoGen.Text.LetterCase

/-!
# Statements

What a statement does is read off its words: its first word is its verb, and the table that it
changes stands at a place that depends on the verb. Nothing else of a statement is understood.
-/
namespace DaoGen.Sql

inductive Verb where
  | select
  | insert
  | update
  | delete
  | replace
  | other
  deriving DecidableEq, Repr

/-- Whether statements of this verb write rows. -/
def Verb.isMutation : Verb → Bool
  | .insert | .update | .delete | .replace => true
  | .select | .other => false

/-- Words end at blanks, opening brackets and semicolons. -/
def isWordEnd (c : Char) : Bool := Text.isBlank c || c == '(' || c == ';'

/-- The words of a statement. -/
def wordsOf (sql : String) : List String :=
  (Text.runsOutside isWordEnd sql.toList).map String.ofList

/-- The words of a statement in upper case. -/
def keywordsOf (sql : String) : List String := (wordsOf sql).map Text.upper

/-- The verb that a first word in upper case stands for. -/
def Verb.ofKeyword : String → Verb
  | "SELECT" | "WITH" => .select
  | "INSERT" => .insert
  | "UPDATE" => .update
  | "DELETE" => .delete
  | "REPLACE" => .replace
  | _ => .other

/-- The verb of a statement. -/
def verbOf (sql : String) : Verb := (keywordsOf sql).head?.elim .other .ofKeyword

/-- Whether a statement writes rows. -/
def isMutation (sql : String) : Bool := (verbOf sql).isMutation

/-- Whether `DO UPDATE` stands among the words. -/
def hasDoUpdate : List String → Bool
  | "DO" :: "UPDATE" :: _ => true
  | _ :: rest => hasDoUpdate rest
  | [] => false

/-- Whether the words begin with `INSERT OR REPLACE`, or whatever verb the first one is. -/
def hasOrReplace : List String → Bool
  | _ :: "OR" :: "REPLACE" :: _ => true
  | _ => false

/-- Whether a statement overwrites the rows that are in its way. -/
def replacesRows (sql : String) : Bool :=
  match verbOf sql with
  | .replace => true
  | .insert => hasOrReplace (keywordsOf sql) || hasDoUpdate (keywordsOf sql)
  | _ => false

/-- The place among the words at which a statement names the table that it changes. -/
def tablePlace? (verb : Verb) (keywords : List String) : Option Nat :=
  match verb with
  | .insert | .replace => (keywords.findIdx? (· == "INTO")).map (· + 1)
  | .update => some (if keywords[1]? = some "OR" then 3 else 1)
  | .delete => if keywords[1]? = some "FROM" then some 2 else none
  | .select | .other => none

/-- The quotes that may stand around the name of a table. -/
def isNameQuote (c : Char) : Bool := c == '"' || c == '`' || c == '[' || c == ']'

/-- The table that a statement changes, without quotes. -/
def mutatedTable? (sql : String) : Option String := do
  let place ← tablePlace? (verbOf sql) (keywordsOf sql)
  let word ← (wordsOf sql)[place]?
  let table := Text.trimBoth isNameQuote word.toList
  if table.isEmpty then none else some (String.ofList table)

/-- Whether a statement returns the rows that it writes. -/
def returnsRows (sql : String) : Bool :=
  (Text.runsOutside Text.isBlank sql.toList).any fun word =>
    word.map Char.toUpper == "RETURNING".toList

end DaoGen.Sql
