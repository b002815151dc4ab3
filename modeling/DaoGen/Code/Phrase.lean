import DaoGen.Code.Token
import DaoGen.Text.Quoted

/-!
# Phrases of generated code

Short sequences of tokens that generated code is put together from.
-/
namespace DaoGen.Code

/-- Keywords and names in a row. -/
def words (texts : List String) : List Token := texts.map fun text => .ident text

/-- Punctuation that belongs together. -/
def operator : List Char → List Token
  | [] => []
  | [c] => [.punct c]
  | c :: rest => .punct c true :: operator rest

def op (text : String) : List Token := operator text.toList

def paren (content : List Token) : List Token := [.group .paren content]

def bracket (content : List Token) : List Token := [.group .bracket content]

def brace (content : List Token) : List Token := [.group .brace content]

/-- Items with commas between them. -/
def commas (items : List (List Token)) : List Token := (op ",").intercalate items

/-- A path of names. -/
def path (names : List String) : List Token := (op "::").intercalate (names.map (words [·]))

/-- A path that starts outside the crate. -/
def absolutePath (names : List String) : List Token := op "::" ++ path names

/-- A path with one more name. -/
def member (base : List Token) (name : String) : List Token := base ++ op "::" ++ words [name]

/-- Arguments of a type. -/
def angled (content : List Token) : List Token := op "<" ++ content ++ op ">"

/-- A string literal. -/
def stringToken (text : String) : List Token := [.literal (Text.quoted text)]

/-- A number without a suffix. -/
def numberToken (n : Nat) : List Token := [.literal (toString n)]

def boolToken (b : Bool) : List Token := words [if b then "true" else "false"]

/-- An attribute before an item. -/
def outerAttribute (content : List Token) : List Token := op "#" ++ bracket content

/-- A documentation line that is worked out from names. -/
def docLine (text : String) : List Token :=
  outerAttribute (words ["doc"] ++ op "=" ++ stringToken text)

/-- A documentation line that is always the same. -/
def fixedDocLine (text : String) : List Token :=
  outerAttribute (words ["doc"] ++ op "=" ++ [.literal ("r\"" ++ text ++ "\"")])

/-- A shared reference to a type. -/
def reference (ty : List Token) : List Token := op "&" ++ ty

/-- A result type. -/
def arrow (ty : List Token) : List Token := op "->" ++ ty

/-- A name with its type. -/
def typed (name : String) (ty : List Token) : List Token := words [name] ++ op ":" ++ ty

/-- A public constant. -/
def publicConst (name : String) (ty value : List Token) : List Token :=
  words ["pub", "const"] ++ typed name ty ++ op "=" ++ value ++ op ";"

/-- A public function; `result` holds its result type and bounds. -/
def publicFn (name : String) (params result body : List Token) : List Token :=
  words ["pub", "fn", name] ++ paren params ++ result ++ brace body

end DaoGen.Code
