import DaoGen.Code.Language.Bound
import DaoGen.Code.Language.Operation

/-!
# Suffixes

What follows an operand and binds more tightly than any operator: calls, members, indexes and
question marks. Each suffix is labelled on its own, so the last label says what the whole is.
-/
namespace DaoGen.Code.Language

/-- Positions with dots between them. Where nothing stands after the last dot, it is kept. -/
def positionTokens : List String → Except GrammarFault (List Token)
  | [] => .ok []
  | [part] =>
    if part = "" then .ok [] else do return [.literal (← positionText part)]
  | part :: rest => do
    let text ← positionText part
    return .literal text :: .punct '.' :: (← positionTokens rest)

/-- The positions in a float after a dot, as in `a.0.1`. -/
def positions : P :=
  .take {
    split tokens :=
      match takeLiteral tokens with
      | some (taken, rest) => do
        let positions ← positionTokens ((literalText taken).splitOn ".")
        return (positions, rest)
      | none => .error (.expected ["identifier or integer"] tokens.isEmpty)
    isSuffix h := by
      split at h
      · next taken rest htake =>
        cases hpositions : positionTokens ((literalText taken).splitOn ".") <;>
          rw [hpositions] at h <;> cases h
        exact takeLiteral_isSuffix htake
      · cases h }

def endsInDot : Trees → Bool
  | [.node _ children] => children.getLast?.any (isMark '.')
  | _ => false

def callArguments : P := parens (commaSeparated anyExpression)

/-- A method with its arguments. -/
def methodCall : P :=
  kind .methodCall
    (name ++ .given (atOp "::") (.labelled .arguments (op "::" ++ angled typeArgument)) ++
      callArguments)

/-- What follows a dot, unless it is a float. -/
def member : P :=
  select
    [(atWord "await", kind .awaited (word "await")),
      (fun tokens =>
        atName tokens && (second (atOp "::") tokens || second (atGroup .paren) tokens),
        methodCall),
      (atName, kind .field name),
      (atInteger, kind .field position)]
    (missing ["identifier or integer"])

/-- A dot and what follows it. -/
def dotSuffix : P :=
  op "." ++
    .either atFloat
      (.bind (kind .field positions) fun trees => if endsInDot trees then member else .empty)
      member

def atSuffix : Look := fun tokens =>
  atGroup .paren tokens || atDot tokens || atGroup .bracket tokens || atOp "?" tokens

def suffixes : P :=
  .repeated atSuffix
    (select
      [(atGroup .paren, kind .call callArguments),
        (atOp ".", dotSuffix),
        (atGroup .bracket, kind .index (brackets anyExpression))]
      (kind .tried (op "?")))

end DaoGen.Code.Language
