import DaoGen.Text.Printable

/-!
# String literals

`quoted` writes text as a string literal between double quotes. Quotes and backslashes are
escaped, characters without a visible form of their own are written by their code point, and a
single quote stands for itself.
-/
namespace DaoGen.Text

/-- The digits of a number in base 16, in lower case and without leading zeros. -/
def hexDigits (n : Nat) : List Char := Nat.toDigits 16 n

/-- The text of one character inside a string literal that goes on with `rest`. -/
def quotedChar (c : Char) (rest : List Char) : List Char :=
  match c with
  | '\x00' =>
    match rest with
    | d :: _ => if '0' ≤ d ∧ d ≤ '7' then ['\\', 'x', '0', '0'] else ['\\', '0']
    | [] => ['\\', '0']
  | '\t' => ['\\', 't']
  | '\r' => ['\\', 'r']
  | '\n' => ['\\', 'n']
  | '"' => ['\\', '"']
  | '\\' => ['\\', '\\']
  | c =>
    if isPrintable c && !isExtendingMark c then [c]
    else ['\\', 'u', '\x7b'] ++ hexDigits c.toNat ++ ['\x7d']

/-- The inside of a string literal. -/
def quotedChars : List Char → List Char
  | [] => []
  | c :: rest => quotedChar c rest ++ quotedChars rest

/-- The string literal for a text. -/
def quoted (s : String) : String :=
  String.ofList ('"' :: quotedChars s.toList ++ ['"'])

end DaoGen.Text
