import DaoGen.Code.Language.Operator

/-!
# Rules and parts of the source language

`Rule` lists what the grammar of source files calls by name, `Part` what readers of its trees look
for.
-/
namespace DaoGen.Code

/-- Where in a list of parameters the next one stands. -/
inductive ParameterPlace where
  | first
  | afterReceiver
  | later
  deriving DecidableEq, Repr, Inhabited

/-- The rules of the grammar. A type may be a sum of bounds only where `plus` is set; an
expression may be a struct literal only where `structs` is set. -/
inductive Rule where
  | file
  | item
  | statements
  | type (plus : Bool)
  | path
  | binders
  | pointerParameters (isFirst : Bool)
  | expression (structs : Bool)
  | unary (structs : Bool)
  /-- the operators, from a given strength on, that follow a left operand -/
  | tails (structs : Bool) (base : Strength) (left : Operand)
  /-- the operators that bind the right operand of an operator of the given strength more tightly
  than that operator -/
  | rightTails (structs : Bool) (strength : Strength) (right : Operand)
  /-- an expression where one that ends in a block ends there -/
  | earlyExpression
  | conditional
  | fieldValues
  | namedFields
  | singlePattern
  | fieldPatterns
  | useTree (root : Bool)
  | parameters (place : ParameterPlace)
  | argumentList
  deriving DecidableEq, Repr, Inhabited

/-- The kinds of expressions. -/
inductive ExpressionKind where
  | array
  | assignment
  | asyncBlock
  | awaited
  | binary
  | block
  | breakOut
  | call
  | cast
  | closure
  | comparison
  | condition
  | conditional
  | constBlock
  | continued
  | field
  | forLoop
  | index
  | inferred
  | literal
  | loop
  | macroCall
  | matched
  | methodCall
  | paren
  | path
  | range
  | rawAddress
  | reference
  | repeated
  | returned
  | structLiteral
  | tried
  | tryBlock
  | tuple
  | unary
  | unsafeBlock
  | verbatim
  | whileLoop
  | yielded
  deriving DecidableEq, Repr, Inhabited

/-- The parts of a text that are labelled. -/
inductive Part where
  | type
  | pathType
  | referenceType
  | sliceType
  | unitType
  | parenType
  | inferType
  | macroType
  /-- an object type of a single bound -/
  | boundType
  | otherType
  | path
  | qualifiedPath
  | segment
  | arguments
  | lifetimeArgument
  | constArgument
  | typeArgument
  | bound
  | constMark
  | bounds
  | generics
  | lifetimeParam
  | typeParam
  | whereClause
  | attribute
  | innerAttribute
  | attributePath
  | attributeValue
  | literalArgument
  | namedArgument
  | pattern
  | namePattern
  | openRange
  | expression (kind : ExpressionKind)
  | value
  | item
  | structItem
  | traitItem
  | moduleItem
  | otherItem
  /-- an item or member that is kept as it was written -/
  | keptItem
  | modifier
  | namedFields
  | tupleFields
  | field
  | tupleField
  | method
  | signature
  | declaredName
  | receiver
  | parameter
  | returnType
  | body
  deriving DecidableEq, Repr, Inhabited

end DaoGen.Code
