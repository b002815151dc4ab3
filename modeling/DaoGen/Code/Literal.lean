import DaoGen.Code.Lexer

/-!
# Values of literals

What a literal token denotes, as far as the arguments of attributes need it: the value of a
string, a character or an integer, and the kind of any other literal.
-/
namespace DaoGen.Code

/-- What a literal token denotes. The digits of an integer are in base 10, with its sign. -/
inductive LiteralValue where
  | string (value : String)
  | byteString
  | zeroEnded
  | byte
  | character (value : Char)
  | integer (digits : String)
  | float
  | boolean (value : Bool)
  | broken
  deriving DecidableEq, Repr

/-- Digits in the given base as a number. -/
def digitsValue (base : Nat) (digits : List Char) : Nat :=
  digits.foldl (fun n c => n * base + hexValue c) 0

/-- The value and the suffix of an integer token without a sign. -/
def integerParts? (cs : List Char) : Option (Nat × List Char) :=
  if (floatLiteral cs).isSome then none
  else (integerDigits cs).map fun (base, digits, suffix) => (digitsValue base digits, suffix)

/-- The value of a number token without a sign. Whatever its suffix, a number without a point and
without an exponent is an integer. -/
def numberValue? (cs : List Char) : Option LiteralValue :=
  if (floatLiteral cs).isSome then some .float
  else (integerParts? cs).map fun (value, _) => .integer (toString value)

/-- The value of a literal token or of one of the two truth words. -/
def LiteralValue.of? (text : String) : Option LiteralValue :=
  if text = "true" then some (.boolean true)
  else if text = "false" then some (.boolean false)
  else if text = brokenLiteral then some .broken
  else
    let cs := text.toList
    match stringLiteral cs with
    | some (value, _) => some (.string (String.ofList value))
    | none =>
      if (byteStringLiteral cs).isSome then some .byteString
      else if (zeroEndedLiteral cs).isSome then some .zeroEnded
      else if (byteLiteral cs).isSome then some .byte
      else
        match characterLiteral cs with
        | some (value, _) => some (.character value)
        | none =>
          match cs with
          | '-' :: number =>
            match numberValue? number with
            | some (.integer digits) => some (.integer ("-" ++ digits))
            | value => value
          | number => numberValue? number

/-- Whether a literal token is a number. -/
def isNumber (text : String) : Bool := (numberValue? text.toList).isSome

end DaoGen.Code
