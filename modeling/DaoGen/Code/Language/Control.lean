import DaoGen.Code.Language.Pattern
import DaoGen.Code.Language.Suffix

/-!
# Values and control

Expressions by what they begin with: paths, brackets, and the words that control what is
evaluated.
-/
namespace DaoGen.Code.Language

/-! ## Paths, groups and literals -/

/-- The member of a struct: a name that stands for itself, or a name or position with a value. -/
def fieldValue : P :=
  attributes ++
    select
      [(atName, name ++ .given (atOp ":") (op ":" ++ anyExpression)),
        (atInteger, positioned anyExpression)]
      (missing ["identifier or integer"])

/-- The members of a struct from a given one on; two dots before the value of all others end
them. -/
def fieldValues : P :=
  unlessEnd
    (.either (atOp "..") (op ".." ++ unlessEnd anyExpression)
      (fieldValue ++ unlessEnd (op "," ++ call .fieldValues)))

/-- What begins with a path, by what follows it. -/
def labelPathExpression (trees : Trees) : Trees :=
  match trees with
  | [_] => [.node (.expression .path) trees]
  | _ :: .leaf _ :: _ => [.node (.expression .macroCall) trees]
  | _ => [.node (.expression .structLiteral) trees]

def pathExpression (structs : Bool) : P :=
  .edited
    (.bind (anyKindOfPath true) fun path =>
      select
        [(atMacroCall path, macroCall),
          (fun tokens => structs && atGroup .brace tokens, braces (call .fieldValues))]
        .empty)
    labelPathExpression

/-- A value in round brackets, or a tuple. -/
def parenExpression : P :=
  .edited
    (parens (unlessEnd (anyExpression ++ unlessEnd (op "," ++ commaSeparated anyExpression))))
    fun trees =>
      match trees with
      | [.group .paren content] =>
        let isTuple := content.isEmpty || content.any (isMark ',')
        [.node (.expression (if isTuple then .tuple else .paren)) trees]
      | _ => trees

/-- The members of an array, or one of them with their number. -/
def arrayExpression : P :=
  .edited
    (brackets (unlessEnd (anyExpression ++
      select
        [(atEnd, .empty), (atOp ",", op "," ++ commaSeparated anyExpression),
          (atOp ";", op ";" ++ anyExpression)]
        (missing ["`,` or `;`"]))))
    fun trees =>
      match trees with
      | [.group .bracket content] =>
        let isRepeated := content.any (isMark ';')
        [.node (.expression (if isRepeated then .repeated else .array)) trees]
      | _ => trees

/-! ## Control -/

/-- An `if` with the chain of others after it. -/
def conditional : P :=
  word "if" ++ headExpression ++ plainBlock ++
    .given (atWord "else")
      (word "else" ++
        oneOf [(.word "if", call .conditional), (.group .brace, plainBlock)])

def whileLoop : P := kind .whileLoop (word "while" ++ headExpression ++ block)

def forLoop : P :=
  kind .forLoop (word "for" ++ pattern ++ word "in" ++ headExpression ++ block)

def endlessLoop : P := kind .loop (word "loop" ++ block)

def blockExpression : P := kind .block block

/-- A loop or block with a label before it. -/
def labelledBlock : P :=
  lifetime ++ op ":" ++
    select
      [(atWord "while", whileLoop), (atWord "for", forLoop), (atWord "loop", endlessLoop),
        (atGroup .brace, blockExpression)]
      (missing ["loop or block expression"])

/-- Whether an expression, as the body of an arm, needs a comma after it. -/
def needsComma (trees : Trees) : Bool :=
  match kindOf? trees with
  | some .conditional | some .matched | some .block | some .unsafeBlock | some .whileLoop
  | some .loop | some .forLoop | some .tryBlock | some .constBlock => false
  | _ => true

def arm : P :=
  attributes ++ pattern ++ .given (atWord "if") (word "if" ++ anyExpression) ++ op "=>" ++
    .bind (call .earlyExpression) fun body =>
      .either (fun tokens => needsComma body && !atEnd tokens) (op ",") (optOp ",")

def matchExpression : P :=
  kind .matched
    (word "match" ++ headExpression ++
      braces (innerAttributes ++ .repeated (fun tokens => !atEnd tokens) arm))

def tryBlock : P := kind .tryBlock (word "try" ++ plainBlock)

def unsafeBlock : P := kind .unsafeBlock (word "unsafe" ++ block)

/-- An operand of a keyword. -/
def optOperand : P := .given startsExpression anyExpression

def breakExpression (structs : Bool) : P :=
  kind .breakOut
    (word "break" ++
      .either (fun tokens => atLifetime tokens && second (atOp ":") tokens)
        (anyExpression ++ refuse "parentheses required")
        (optLifetime ++
          .given (fun tokens => structs || !atGroup .brace tokens) optOperand))

def letExpression (structs : Bool) : P :=
  kind .condition
    (word "let" ++ pattern ++ op "=" ++
      .bind (call (.unary structs)) fun trees =>
        call (.tails structs .comparison (operandOf trees)))

/-- A parameter of a closure. A pattern that is kept as written loses the attributes before it,
unless a type follows. -/
def closureParameter : P :=
  .edited (attributes ++ innerPattern ++ .given (atOp ":") (op ":" ++ call (.type true)))
    fun trees =>
      match trees.filter fun tree => !isNode .attribute tree with
      | [.node .pattern (.leaf (.ident "box" line) :: rest)] =>
        [.node .pattern (.leaf (.ident "box" line) :: rest)]
      | _ => trees

def closure (structs : Bool) : P :=
  kind .closure
    (.given (atWord "for") (call .binders) ++ optWord "const" ++ optWord "static" ++
      optWord "async" ++ optWord "move" ++ op "|" ++
      separated (atOp "|") (op ",") closureParameter ++ op "|" ++
      .either (atOp "->") (op "->" ++ call (.type true) ++ plainBlock)
        (call (.expression structs)))

/-- What is kept as it was written. -/
def keptExpression (inside : P) : P := kind .verbatim (.asWritten inside fun _ => true)

end DaoGen.Code.Language
