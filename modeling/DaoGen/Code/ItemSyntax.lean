import DaoGen.Code.TypeSyntax

/-!
# Items as written

What a source file declares: structs with their fields, traits with their methods, and modules,
each with its attributes and the line of its name. Other items are passed over.
-/
namespace DaoGen.Code

/-- The value of an attribute or of one of its arguments: a literal, or another expression, of
which only the kind is kept. -/
inductive ValueSyntax where
  | literal (text : String)
  | expression (kind : String)
  deriving DecidableEq, Repr

/-- What follows the path of an attribute. -/
inductive AttributeArguments where
  | none
  | list (delimiter : Delimiter) (tokens : List Token)
  | value (value : ValueSyntax)
  deriving Repr

/-- An attribute of an item, a member or a parameter, with the names of its path. -/
structure Attribute where
  absolute : Bool
  path : List String
  arguments : AttributeArguments
  tokens : List Token
  deriving Repr

/-- A name and the line it was read on. -/
structure PlacedName where
  text : String
  line : Nat
  deriving DecidableEq, Repr, Inhabited

/-- A named field of a struct. -/
structure FieldSyntax where
  name : PlacedName
  attributes : List Attribute
  type : TypeSyntax
  deriving Repr

/-- The fields of a struct. Unnamed fields only keep their attributes. -/
inductive FieldsSyntax where
  | named (fields : List FieldSyntax)
  | tuple (attributes : List (List Attribute))
  | unit
  deriving Repr

/-- A parameter with its position among all parameters, the receiver included. The name is that
of a plain name pattern. -/
structure ParameterSyntax where
  position : Nat
  name : Option String
  attributes : List Attribute
  type : TypeSyntax
  deriving Repr

/-- A method of a trait. `sharesReceiver` says that its receiver is a plain shared reference. -/
structure MethodSyntax where
  name : PlacedName
  attributes : List Attribute
  isGeneric : Bool
  isAsync : Bool
  sharesReceiver : Bool
  parameters : List ParameterSyntax
  returns : Option TypeSyntax
  hasBody : Bool
  deriving Repr

/-- An item that can declare something. -/
inductive ItemSyntax where
  | struct (attributes : List Attribute) (name : PlacedName) (isGeneric : Bool)
      (fields : FieldsSyntax)
  | interface (attributes : List Attribute) (name : PlacedName) (isGeneric : Bool)
      (methods : List MethodSyntax)
  | module (name : PlacedName) (items : List ItemSyntax)
  deriving Repr

/-! ## Reading trees -/

namespace ParseTree

/-- The children of the first node of a label. -/
def childrenOf? (label : Part) (trees : List (ParseTree Part)) : Option (List (ParseTree Part)) :=
  trees.findSome? fun tree =>
    match tree with
    | .node l children => if l = label then some children else none
    | _ => none

/-- The children of each node of a label. -/
def allChildrenOf (label : Part) (trees : List (ParseTree Part)) : List (List (ParseTree Part)) :=
  trees.filterMap fun tree =>
    match tree with
    | .node l children => if l = label then some children else none
    | _ => none

/-- The children of the first group. -/
def groupChildren (trees : List (ParseTree Part)) : List (ParseTree Part) :=
  (trees.findSome? fun tree =>
    match tree with
    | .group _ children => some children
    | _ => none).getD []

/-- The name that a declaration introduces; a field may be nameless. -/
def declaredName (trees : List (ParseTree Part)) : PlacedName :=
  match childrenOf? .declaredName trees with
  | some [.leaf (.ident text line)] => ⟨text, line⟩
  | _ => ⟨"_", 0⟩

/-- The type among the trees. -/
def typeOf? (trees : List (ParseTree Part)) : Option TypeSyntax :=
  trees.findSome? fun tree =>
    if Language.isNode .type tree then some (TypeSyntax.ofTree tree) else none

/-- Whether the declaration has generic parameters. -/
def isGeneric (trees : List (ParseTree Part)) : Bool :=
  match childrenOf? .generics trees with
  | some children => !children.isEmpty
  | none => false

end ParseTree

/-! ### Values and attributes -/

/-- How the kind of an expression is called. -/
def ExpressionKind.text : ExpressionKind → String
  | .array => "array"
  | .assignment => "assign"
  | .asyncBlock => "async"
  | .awaited => "await"
  | .binary => "binary"
  | .block => "block"
  | .breakOut => "break"
  | .call => "call"
  | .cast => "cast"
  | .closure => "closure"
  | .comparison => "binary"
  | .condition => "let"
  | .conditional => "if"
  | .constBlock => "const"
  | .continued => "continue"
  | .field => "field"
  | .forLoop => "for_loop"
  | .index => "index"
  | .inferred => "infer"
  | .literal => "lit"
  | .loop => "loop"
  | .macroCall => "macro"
  | .matched => "match"
  | .methodCall => "method_call"
  | .paren => "paren"
  | .path => "path"
  | .range => "range"
  | .rawAddress => "unknown"
  | .reference => "reference"
  | .repeated => "repeat"
  | .returned => "return"
  | .structLiteral => "struct"
  | .tried => "try"
  | .tryBlock => "try_block"
  | .tuple => "tuple"
  | .unary => "unary"
  | .unsafeBlock => "unsafe"
  | .verbatim => "verbatim"
  | .whileLoop => "while"
  | .yielded => "yield"

/-- The value that an expression stands for. Its last part says what it is. -/
def ValueSyntax.ofTrees (trees : List (ParseTree Part)) : ValueSyntax :=
  match trees.getLast? with
  | some (.node (.expression .literal) children) => .literal (literalText (tokensOf children))
  | _ => .expression ((Language.kindOf? trees).getD .verbatim).text

/-- The identifiers of a path. -/
def pathNames (tokens : List Token) : List String :=
  tokens.filterMap fun token =>
    match token with
    | .ident text _ => some text
    | _ => none

/-- What follows the path of an attribute or of an argument. -/
def readArguments (trees : List (ParseTree Part)) : AttributeArguments :=
  match trees.getLast? with
  | some (.leaf (.group d tokens)) => .list d tokens
  | some (.node .attributeValue value) => .value (.ofTrees value)
  | _ => .none

/-- The tokens of the path of an attribute or of an argument. -/
def attributePath (trees : List (ParseTree Part)) : List Token :=
  ((ParseTree.childrenOf? .attributePath trees).map tokensOf).getD []

/-- An attribute from the trees of its tokens. -/
def readAttribute (trees : List (ParseTree Part)) : Attribute :=
  let inside := ParseTree.groupChildren trees
  { absolute := TypeReading.startsWithColon (attributePath inside)
    path := pathNames (attributePath inside)
    arguments := readArguments inside
    tokens := tokensOf trees }

/-- The attributes before an item, a member or a parameter. -/
def readAttributes (trees : List (ParseTree Part)) : List Attribute :=
  (ParseTree.allChildrenOf .attribute trees).map readAttribute

/-- The attributes at the front of the braces of an item. -/
def readInnerAttributes (trees : List (ParseTree Part)) : List Attribute :=
  (ParseTree.allChildrenOf .innerAttribute (ParseTree.groupChildren trees)).map readAttribute

/-! ### Members -/

/-- The fields of a struct. -/
def readFields (trees : List (ParseTree Part)) : FieldsSyntax :=
  match ParseTree.childrenOf? .namedFields trees, ParseTree.childrenOf? .tupleFields trees with
  | some children, _ =>
    .named ((ParseTree.allChildrenOf .field (ParseTree.groupChildren children)).map fun field =>
      { name := ParseTree.declaredName field
        attributes := readAttributes field
        type := (ParseTree.typeOf? field).getD .infer })
  | none, some children =>
    .tuple
      ((ParseTree.allChildrenOf .tupleField (ParseTree.groupChildren children)).map readAttributes)
  | none, none => .unit

/-- The name that a pattern of a plain name binds. -/
def patternName? (trees : List (ParseTree Part)) : Option String :=
  match ParseTree.childrenOf? .pattern trees with
  | some [.node .namePattern children] =>
    if (ParseTree.childrenOf? .declaredName children).isSome then
      some (ParseTree.declaredName children).text
    else some "self"
  | _ => none

/-- The parameters of a method, from the trees between its round brackets. -/
def readParameters (trees : List (ParseTree Part)) : List ParameterSyntax :=
  let slots := trees.filter fun tree =>
    Language.isNode .receiver tree || Language.isNode .parameter tree
  slots.zipIdx.filterMap fun (tree, position) =>
    match tree with
    | .node .parameter children =>
      some {
        position
        name := patternName? children
        attributes := readAttributes children
        type := (ParseTree.typeOf? children).getD .infer }
    | _ => none

/-- Whether a receiver is a shared reference without a type of its own. -/
def isSharedReceiver (trees : List (ParseTree Part)) : Bool :=
  match trees with
  | .leaf (.punct '&' _) :: rest => !rest.any (Language.isWord "mut")
  | _ => false

/-- A method of a trait. -/
def readMethod (trees : List (ParseTree Part)) : MethodSyntax :=
  let signature := (ParseTree.childrenOf? .signature trees).getD []
  let inputs := ParseTree.groupChildren signature
  let body := ParseTree.childrenOf? .body trees
  { name := ParseTree.declaredName signature
    attributes := readAttributes trees ++ body.elim [] readInnerAttributes
    isGeneric := ParseTree.isGeneric signature
    isAsync := signature.any (Language.isWord "async")
    sharesReceiver := (ParseTree.childrenOf? .receiver inputs).any isSharedReceiver
    parameters := readParameters inputs
    returns := (ParseTree.childrenOf? .returnType signature).bind ParseTree.typeOf?
    hasBody := body.isSome }

/-! ### Items -/

/-- Gives a struct or trait the attributes that stand before it, too. -/
def ItemSyntax.withAttributes (attributes : List Attribute) : ItemSyntax → ItemSyntax
  | .struct inner name isGeneric fields => .struct (attributes ++ inner) name isGeneric fields
  | .interface inner name isGeneric methods =>
    .interface (attributes ++ inner) name isGeneric methods
  | .module name items => .module name items

mutual

/-- The items that a tree declares; those inside bodies are not declared. -/
def itemsOfTree : ParseTree Part → List ItemSyntax
  | .leaf _ => []
  | .group _ children => itemsOfTrees children
  | .node part children =>
    match part with
    | .structItem =>
      [.struct [] (ParseTree.declaredName children) (ParseTree.isGeneric children)
        (readFields children)]
    | .traitItem =>
      [.interface (readInnerAttributes children) (ParseTree.declaredName children)
        (ParseTree.isGeneric children)
        ((ParseTree.allChildrenOf .method (ParseTree.groupChildren children)).map readMethod)]
    | .moduleItem => [.module (ParseTree.declaredName children) (itemsOfTrees children)]
    | .item => (itemsOfTrees children).map (.withAttributes (readAttributes children))
    | _ => []

/-- The items that a sequence of trees declares, in order. -/
def itemsOfTrees : List (ParseTree Part) → List ItemSyntax
  | [] => []
  | tree :: rest => itemsOfTree tree ++ itemsOfTrees rest

end

/-! ## Reading text -/

/-- Drops the first line if it names an interpreter. -/
def skipInterpreterLine (cs : List Char) : List Char :=
  match cs with
  | '#' :: '!' :: rest =>
    match skipGaps rest.length rest with
    | '[' :: _ => cs
    | _ => cs.dropWhile (· != '\n')
  | cs => cs

/-- The trees of a rule that takes all of a text. -/
def parseText (rule : Rule) (tokens : Option (List Token)) : Option (List (ParseTree Part)) := do
  (language.parse rule (← tokens)).toOption

/-- The items of a source file, or nothing if its text does not follow the grammar. -/
def parseFile (text : String) : Option (List ItemSyntax) := do
  let trees ← parseText .file (lexChars (skipInterpreterLine (skipOrderMark text.toList)))
  return itemsOfTrees trees

/-- The tokens of a type written as text, as the grammar reads them. -/
def parseType (text : String) : Option (List Token) :=
  (parseText (.type true) (lex text)).map tokensOf

/-- The tokens of a path written as text. -/
def parsePath (text : String) : Option (List Token) :=
  (parseText .path (lex text)).map tokensOf

/-- The name written as text, which may have gaps around it. -/
def parseName (text : String) : Option String :=
  match lex text with
  | some [.ident name _] => if isName name then some name else none
  | _ => none

end DaoGen.Code
