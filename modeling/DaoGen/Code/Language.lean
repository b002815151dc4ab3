import DaoGen.Code.Language.Item

/-!
# The grammar of source files

The language in which declarations are written and code is generated. Operators are matched one
at a time where the language splits them, so the two `>` of nested type arguments and the two `&`
of a reference to a reference are separate operators.
-/
namespace DaoGen.Code

/-- The grammar of source files. -/
def language : Grammar Rule Part
  | .file => Language.file
  | .item => Language.item
  | .statements => Language.statements
  | .type plus => Language.type plus
  | .path => Language.pathWith false
  | .binders => Language.binders
  | .pointerParameters isFirst => Language.pointerParameters isFirst
  | .expression structs => Language.expression structs
  | .unary structs => Language.unary structs
  | .tails structs base left => Language.tails structs base left
  | .rightTails structs strength right => Language.rightTails structs strength right
  | .earlyExpression => Language.earlyExpression
  | .conditional => Language.conditional
  | .fieldValues => Language.fieldValues
  | .namedFields => Language.namedFields
  | .singlePattern => Language.singlePattern
  | .fieldPatterns => Language.fieldPatterns
  | .useTree root => Language.useTree root
  | .parameters place => Language.parameters place
  | .argumentList => Language.argumentList

end DaoGen.Code
