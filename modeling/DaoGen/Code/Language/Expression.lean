import DaoGen.Code.Language.Control

/-!
# Expressions

The choice of an expression by the tokens ahead. An operand is an atom with attributes and signs
before it and suffixes after it.
-/
namespace DaoGen.Code.Language

/-! ## Atoms -/

def atTryBlock : Look := fun tokens => atWord "try" tokens && second (atGroup .brace) tokens

def atConstBlock : Look := fun tokens => atWord "const" tokens && second (atGroup .brace) tokens

def atAsyncBlock : Look := fun tokens =>
  atWord "async" tokens &&
    (second (atGroup .brace) tokens ||
      second (atWord "move") tokens && third (atGroup .brace) tokens)

def atForClosure : Look := fun tokens => atWord "for" tokens && second atGenerics tokens

def atClosure : Look := fun tokens =>
  atOp "|" tokens || atWord "move" tokens || atForClosure tokens ||
    atWord "const" tokens && !atConstBlock tokens || atWord "static" tokens ||
    atWord "async" tokens && (second (atOp "|") tokens || second (atWord "move") tokens)

def startsPath : Look := fun tokens =>
  atPathName tokens || atOp "::" tokens || atOp "<" tokens ||
    atWord "try" tokens && (second (atOp "!") tokens || second (atOp "::") tokens)

/-- The operand that no sign stands before, without its suffixes. -/
def atom (structs : Bool) : P :=
  select
    [(atLiteral, kind .literal literal),
      (atAsyncBlock, kind .asyncBlock (word "async" ++ optWord "move" ++ plainBlock)),
      (atTryBlock, tryBlock),
      (atClosure, closure structs),
      (fun tokens => atWord "builtin" tokens && second (atOp "#") tokens,
        keptExpression (anyName ++ op "#" ++ name ++ .either (atGroup .paren) rawGroup
          (parens .empty))),
      (startsPath, pathExpression structs),
      (atGroup .paren, parenExpression),
      (atWord "break", breakExpression structs),
      (atWord "continue", kind .continued (word "continue" ++ optLifetime)),
      (atWord "return", kind .returned (word "return" ++ optOperand)),
      (atWord "become", keptExpression (word "become" ++ anyExpression)),
      (atGroup .bracket, arrayExpression),
      (atWord "let", letExpression structs),
      (atWord "if", kind .conditional (call .conditional)),
      (atWord "while", whileLoop),
      (atWord "for", forLoop),
      (atWord "loop", endlessLoop),
      (atWord "match", matchExpression),
      (atWord "yield", kind .yielded (word "yield" ++ optOperand)),
      (atWord "unsafe", unsafeBlock),
      (atWord "const", kind .constBlock constBlock),
      (atGroup .brace, blockExpression),
      (atOp "..", kind .range (rangeTail structs)),
      (atWord "_", kind .inferred (word "_")),
      (atLifetime, labelledBlock)]
    (missing ["an expression"])

/-- An atom with its suffixes; a range takes none, and no attributes either. -/
def operand (structs hasAttributes : Bool) : P :=
  .bind (atom structs) fun trees =>
    if operandOf trees = .range then
      if hasAttributes then
        refuse "attributes are not allowed on range expressions starting with `..`"
      else .empty
    else suffixes

/-- A reference, or the address of a place. -/
def referenceTo (structs : Bool) : P :=
  .either
    (fun tokens => second (atWord "raw") tokens && third (atAnyWord ["mut", "const"]) tokens)
    (kind .rawAddress (op "&" ++ word "raw" ++ anyName ++ call (.unary structs)))
    (kind .reference (op "&" ++ optWord "mut" ++ call (.unary structs)))

/-- An operand with what stands before it. One that is kept as written keeps its attributes so,
too. -/
def unary (structs : Bool) : P :=
  let signed (text : String) := kind .unary (op text ++ call (.unary structs))
  .shaped
    (.bind attributes fun attributes =>
      select
        [(atOp "&", referenceTo structs), (atOp "*", signed "*"), (atOp "!", signed "!"),
          (atOp "-", signed "-")]
        (operand structs !attributes.isEmpty))
    fun before after trees =>
      if kindOf? trees = some .verbatim then
        [.node (.expression .verbatim) (Production.written before after)]
      else trees

/-! ## Early ends -/

/-- An expression that ends in a block ends there, unless a dot or a question mark follows. -/
def blockLike : P :=
  select
    [(atWord "if", kind .conditional (call .conditional)),
      (atWord "while", whileLoop),
      (atWord "for", forLoop),
      (atWord "loop", endlessLoop),
      (atWord "match", matchExpression),
      (atTryBlock, tryBlock),
      (atWord "unsafe", unsafeBlock),
      (atConstBlock, kind .constBlock constBlock),
      (atGroup .brace, blockExpression)]
    labelledBlock

def atBlockLike : Look := fun tokens =>
  !atForClosure tokens && atAnyWord ["if", "while", "for", "loop", "match", "unsafe"] tokens ||
    atTryBlock tokens || atConstBlock tokens || atGroup .brace tokens || atLifetime tokens

/-- Whether something is kept as written, on its own or as the left operand of operators. -/
def beginsKept : Trees → Bool
  | .node (.expression .verbatim) _ :: .node (.expression kind) _ :: _ =>
    [.binary, .comparison, .assignment, .cast].contains kind
  | [.node (.expression .verbatim) _] => true
  | _ => false

/-- An expression on its own. What is kept as written loses the attributes before it. -/
def earlyExpression : P :=
  .edited
    (attributes ++
      .either atBlockLike
        (.bind blockLike fun _ =>
          .given (fun tokens => atDot tokens || atOp "?" tokens)
            (.bind suffixes fun trees => call (.tails true .weakest (operandOf trees))))
        anyExpression)
    fun trees =>
      let expression := trees.filter fun tree => !isNode .attribute tree
      if beginsKept expression then expression else trees

end DaoGen.Code.Language
