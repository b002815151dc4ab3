import DaoGen.Code.Language.Expression

/-!
# Statements

What stands in a block: items, calls of macros, bindings and expressions. An expression needs a
semicolon after it unless it is the last one or ends in a block.
-/
namespace DaoGen.Code.Language

/-- Whether an item begins here, after its attributes, and neither an expression nor a binding. -/
def atItem : Look := fun tokens =>
  atAnyWord ["pub", "extern", "use", "fn", "mod", "type", "struct", "enum", "trait", "impl",
    "macro"] tokens ||
    atWord "crate" tokens && !second (atOp "::") tokens ||
    atWord "static" tokens && (second (atWord "mut") tokens || second atName tokens) ||
    atWord "const" tokens &&
      !(second (atGroup .brace) tokens || second (atWord "static") tokens ||
        second (atWord "async") tokens && !third (atAnyWord ["unsafe", "extern", "fn"]) tokens ||
        second (atWord "move") tokens || second (atOp "|") tokens) ||
    atWord "unsafe" tokens && !second (atGroup .brace) tokens ||
    atWord "async" tokens && second (atAnyWord ["unsafe", "extern", "fn"]) tokens ||
    atWord "union" tokens && second atName tokens ||
    atWord "auto" tokens && second (atWord "trait") tokens ||
    atWord "default" tokens && second (atAnyWord ["unsafe", "impl"]) tokens

/-- Whether a macro that makes an item of a given name is called. -/
def atItemMacro : Look := fun tokens =>
  (afterPlainPath? tokens).any fun rest =>
    atOp "!" rest && (second atName rest || second (atWord "try") rest)

/-- Whether a macro is called with braces and nothing uses its value. -/
def atMacroStatement : Look := fun tokens =>
  (afterPlainPath? tokens).any fun rest =>
    atOp "!" rest && second (atGroup .brace) rest && !third atDot rest && !third (atOp "?") rest

def macroStatement : P := attributes ++ plainPath ++ macroCall ++ optOp ";"

/-- Whether the last token is a group in braces. -/
def endsInBraces (trees : Trees) : Bool :=
  match (tokensOf trees).getLast? with
  | some (.group .brace _) => true
  | _ => false

/-- The other branch of a binding, which cannot follow a closing brace. -/
def bindingElse (value : Trees) : P :=
  .given (fun tokens => atWord "else" tokens && !endsInBraces value)
    (word "else" ++ plainBlock)

def binding : P :=
  attributes ++ word "let" ++ innerPattern ++
    .given (atOp ":") (op ":" ++ call (.type true)) ++
    .given (atOp "=") (op "=" ++ .bind anyExpression bindingElse) ++ op ";"

/-- Whether an expression needs a semicolon before the next statement. -/
def needsSemicolon (trees : Trees) : Bool :=
  match kindOf? trees with
  | some .macroCall => !endsInBraces trees
  | _ => needsComma trees

def expressionStatement : P :=
  .bind (call .earlyExpression) fun trees =>
    select
      [(atOp ";", op ";"), (fun tokens => atEnd tokens || !needsSemicolon trees, .empty)]
      (refuse "unexpected token, expected `;`")

def statement : P :=
  select
    [(fun tokens => atMacroStatement (afterAttributes tokens), macroStatement),
      (fun tokens => atWord "let" (afterAttributes tokens), binding),
      (fun tokens =>
        let rest := afterAttributes tokens
        atItem rest || atItemMacro rest,
        call .item)]
    expressionStatement

def statements : P :=
  .repeated (fun tokens => !atEnd tokens) (.either (atOp ";") (op ";") statement)

end DaoGen.Code.Language
