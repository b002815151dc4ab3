import DaoGen.Code.Look

/-!
# Operators between operands

How tightly the operators between two operands bind, and which one is ahead. Of several operators
that fit the tokens ahead, the first of the table counts, so an assigning operator is not taken
for the one it begins with.
-/
namespace DaoGen.Code

/-- How tightly an operator binds, the weakest first. -/
inductive Strength where
  | weakest
  | assignment
  | range
  | disjunction
  | conjunction
  | comparison
  | bitOr
  | bitXor
  | bitAnd
  | shift
  | sum
  | product
  | cast
  deriving DecidableEq, Repr, Inhabited

/-- The place of a strength in the order. -/
def Strength.rank : Strength → Nat
  | .weakest => 0
  | .assignment => 1
  | .range => 2
  | .disjunction => 3
  | .conjunction => 4
  | .comparison => 5
  | .bitOr => 6
  | .bitXor => 7
  | .bitAnd => 8
  | .shift => 9
  | .sum => 10
  | .product => 11
  | .cast => 12

/-- What stands on the left of an operator, as far as the operator depends on it. -/
inductive Operand where
  | range
  | comparison
  | other
  deriving DecidableEq, Repr, Inhabited

/-- The binary operators, in the order in which they are tried. -/
def binaryOperators : List (String × Strength) :=
  [("+=", .assignment), ("-=", .assignment), ("*=", .assignment), ("/=", .assignment),
    ("%=", .assignment), ("^=", .assignment), ("&=", .assignment), ("|=", .assignment),
    ("<<=", .assignment), (">>=", .assignment), ("&&", .conjunction), ("||", .disjunction),
    ("<<", .shift), (">>", .shift), ("==", .comparison), ("<=", .comparison),
    ("!=", .comparison), (">=", .comparison), ("+", .sum), ("-", .sum), ("*", .product),
    ("/", .product), ("%", .product), ("^", .bitXor), ("&", .bitAnd), ("|", .bitOr),
    ("<", .comparison), (">", .comparison)]

/-- The binary operator ahead. -/
def binaryAhead? (tokens : List Token) : Option (String × Strength) :=
  binaryOperators.find? fun (text, _) => atOp text tokens

/-- The equals sign of an assignment or a definition. -/
def atEquals : Look := fun tokens => atOp "=" tokens && !atOp "=>" tokens

/-- The strength of the operator ahead; the weakest one if there is none. -/
def strengthAhead (tokens : List Token) : Strength :=
  match binaryAhead? tokens with
  | some (_, strength) => strength
  | none =>
    if atEquals tokens then .assignment
    else if atOp ".." tokens then .range
    else if atWord "as" tokens then .cast
    else .weakest

end DaoGen.Code
