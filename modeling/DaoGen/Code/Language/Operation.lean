import DaoGen.Code.Language.Basic

/-!
# Operations

Operands with operators between them. The trees of an expression lie side by side: each operator
is labelled together with its right operand, so the last label says what the whole is.

Where `structs` is not set, an open brace ends the expression.
-/
namespace DaoGen.Code.Language

def kind (k : ExpressionKind) (inside : P) : P := .labelled (.expression k) inside

/-- An expression of any kind. -/
def anyExpression : P := call (.expression true)

/-- What a condition or the subject of a `match` is. -/
def headExpression : P := call (.expression false)

/-- Whether an expression can begin here. -/
def startsExpression : Look := fun tokens =>
  atAnyName tokens && !atWord "as" tokens || atAnyGroup tokens || atLiteral tokens ||
    atBang tokens ||
    atOp "-" tokens && !atOp "-=" tokens && !atOp "->" tokens ||
    atOp "*" tokens && !atOp "*=" tokens ||
    atOp "|" tokens && !atOp "|=" tokens ||
    atOp "&" tokens && !atOp "&=" tokens ||
    atOp ".." tokens ||
    atOp "<" tokens && !atOp "<=" tokens && !atOp "<<=" tokens ||
    atOp "::" tokens || atLifetime tokens || atOp "#" tokens

/-! ## Operators -/

/-- Goes on after an operator with the right operand, which takes what binds more tightly. -/
def rightOperand (structs : Bool) (strength : Strength) : P :=
  .bind (call (.unary structs)) fun trees =>
    call (.rightTails structs strength (operandOf trees))

/-- Where a range has no end. -/
def atOpenEnd (structs : Bool) : Look := fun tokens =>
  atEnd tokens || atComma tokens || atOp ";" tokens || atDot tokens || atOp "?" tokens ||
    atOp "=>" tokens || !structs && atGroup .brace tokens ||
    ["=", "+", "/", "%", "^", ">", "<=", "!=", "-=", "*=", "&=", "|=", "<<="].any
      (fun text => atOp text tokens) ||
    atWord "as" tokens

/-- The dots of a range and its end. -/
def rangeTail (structs : Bool) : P :=
  select
    [(atOp "..=", op "..=" ++ rightOperand structs .range),
      (atOp "...", missing [quoted "..="]),
      (atOp "..", op ".." ++
        .either (atOpenEnd structs) .empty (rightOperand structs .range))]
    (missing [quoted "..", quoted "..="])

/-- Refuses what would be taken for a part of the type of a cast. -/
def castEnd : P :=
  .choose fun tokens =>
    let refuseBefore (what : String) := refuse ("casts cannot be followed by " ++ what)
    if atDot tokens then
      if second (atWord "await") tokens then refuseBefore "`.await`"
      else if second atName tokens && (third (atGroup .paren) tokens || third (atOp "::") tokens)
      then refuseBefore "a method call"
      else refuseBefore "a field access"
    else if atOp "?" tokens then refuseBefore "`?`"
    else if atGroup .bracket tokens then refuseBefore "indexing"
    else if atGroup .paren tokens then refuseBefore "a function call"
    else .empty

/-- The operator ahead with its right operand. -/
def operator (structs : Bool) (left : Operand) : P :=
  .choose fun tokens =>
    match binaryAhead? tokens with
    | some (text, .comparison) =>
      if left = .comparison then refuse "comparison operators cannot be chained"
      else kind .comparison (op text ++ rightOperand structs .comparison)
    | some (text, strength) => kind .binary (op text ++ rightOperand structs strength)
    | none =>
      select
        [(atOp "=", kind .assignment (op "=" ++ rightOperand structs .assignment)),
          (atOp "..", kind .range (rangeTail structs))]
        (kind .cast (word "as" ++ call (.type false) ++ castEnd))

/-- The operators of at least a given strength that follow a left operand. A range is not the
left operand of anything. -/
def tails (structs : Bool) (base : Strength) (left : Operand) : P :=
  .choose fun tokens =>
    let strength := strengthAhead tokens
    if left = .range || strength = .weakest || strength.rank < base.rank then .empty
    else
      .bind (operator structs left) fun trees => call (.tails structs base (operandOf trees))

/-- The operators that follow the right operand of an operator and bind more tightly than it;
assignments group to the right. -/
def rightTails (structs : Bool) (strength : Strength) (right : Operand) : P :=
  .choose fun tokens =>
    let next := strengthAhead tokens
    if strength.rank < next.rank || next = strength && strength = .assignment then
      .bind (call (.tails structs next right)) fun trees =>
        if trees.isEmpty then .empty
        else call (.rightTails structs strength (operandOf trees))
    else .empty

def expression (structs : Bool) : P :=
  .bind (call (.unary structs)) fun trees => call (.tails structs .weakest (operandOf trees))

end DaoGen.Code.Language
