import DaoGen.Target

/-!
# Named parameters of a query

A query names its parameters as in `:name`. Binding puts the placeholders of a dialect in their
place and lists the parameters to supply. Text between quotes and the two colons of a cast are not
looked into.
-/
namespace DaoGen.Sql

/-- A part of a query: a character that stays, or a named parameter. -/
inductive Piece where
  | char (c : Char)
  | param (name : List Char)
  deriving DecidableEq, Repr

/-- The text that a part was read from. -/
def Piece.source : Piece → List Char
  | .char c => [c]
  | .param name => ':' :: name

def Piece.name? : Piece → Option (List Char)
  | .char _ => none
  | .param name => some name

def isNameStart (c : Char) : Bool := c.isAlpha || c == '_'

def isNameChar (c : Char) : Bool := c.isAlphanum || c == '_'

/-- Whether a text goes on with a character of a class. -/
def goesOn (p : Char → Bool) (cs : List Char) : Bool := cs.head?.any p

/-- Where the scan of a query stands. -/
inductive Mode where
  | plain
  /-- inside quotes, up to the next copy of the opening one -/
  | quoted (mark : Char)
  /-- before the second colon of a cast -/
  | cast
  /-- inside the name of a parameter, of which a part has been read -/
  | name (read : List Char)
  deriving DecidableEq, Repr

/-- Cuts a query into its parts. -/
def scan : Mode → List Char → List Piece
  | _, [] => []
  | .plain, c :: rest =>
    if c = '\'' ∨ c = '"' then .char c :: scan (.quoted c) rest
    else if c = ':' ∧ goesOn (· == ':') rest then .char c :: scan .cast rest
    else if c = ':' ∧ goesOn isNameStart rest then scan (.name []) rest
    else .char c :: scan .plain rest
  | .quoted mark, c :: rest =>
    .char c :: scan (if c = mark then .plain else .quoted mark) rest
  | .cast, c :: rest => .char c :: scan .plain rest
  | .name read, c :: rest =>
    if goesOn isNameChar rest then scan (.name (read ++ [c])) rest
    else .param (read ++ [c]) :: scan .plain rest

/-- The parts of a query. -/
def piecesOf (sql : String) : List Piece := scan .plain sql.toList

/-- The names of the parameters of a query, once for each place where one stands. -/
def namesOf (pieces : List Piece) : List (List Char) := pieces.filterMap Piece.name?

/-- The parameters to supply. With unnumbered placeholders there is one for each place; numbered
ones are shared by the places of one name, in the order of first use. -/
def suppliedNames (dialect : Dialect) (pieces : List Piece) : List (List Char) :=
  match dialect with
  | .sqlite => namesOf pieces
  | .postgres => (namesOf pieces).eraseDups

/-- The text of a part when the supplied parameters are known. -/
def Piece.bound (dialect : Dialect) (supplied : List (List Char)) : Piece → List Char
  | .char c => [c]
  | .param name => (dialect.placeholder (supplied.idxOf name + 1)).toList

/-- A query for a dialect and the names of the parameters to supply. -/
structure BoundQuery where
  sql : String
  params : List String
  deriving DecidableEq, Repr

/-- Puts placeholders in the place of named parameters. -/
def bind (dialect : Dialect) (sql : String) : BoundQuery :=
  let pieces := piecesOf sql
  let supplied := suppliedNames dialect pieces
  { sql := String.ofList (pieces.flatMap (Piece.bound dialect supplied))
    params := supplied.map String.ofList }

end DaoGen.Sql
