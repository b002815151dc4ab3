import DaoGen.Code.Reserved
import DaoGen.Code.Token
import DaoGen.Text.Blank
import DaoGen.Text.Quoted

/-!
# Reading text as tokens

`lex` cuts program text into token trees, or fails if the text has no lexical structure: an
unknown character, an open literal or comment, brackets that do not match. Comments and blanks
are dropped; a documentation comment becomes the attribute it stands for. Lines are counted
from 1.

The scanners of one kind of token map the text to the rest after the token, or to `none` if the
text does not begin with one.
-/
namespace DaoGen.Code

open Text

/-! ## Blanks and comments -/

/-- Blanks between tokens; the two direction marks count as blank here. -/
def isGap (c : Char) : Bool := isBlank c || c == '\u200e' || c == '\u200f'

/-- The text up to the end of the line and the text from there. A carriage return before the line
feed belongs to neither. -/
def splitLine : List Char → List Char × List Char
  | [] => ([], [])
  | '\n' :: cs => ([], '\n' :: cs)
  | '\r' :: '\n' :: cs => ([], '\n' :: cs)
  | c :: cs =>
    let (line, rest) := splitLine cs
    (c :: line, rest)

/-- The text after the end of a block comment that is open to the given depth. -/
def closeComment : Nat → List Char → Option (List Char)
  | depth, '/' :: '*' :: cs => closeComment (depth + 1) cs
  | 0, _ => none
  | 1, '*' :: '/' :: cs => some cs
  | depth + 2, '*' :: '/' :: cs => closeComment (depth + 1) cs
  | depth, _ :: cs => closeComment depth cs
  | _, [] => none

/-- The text after a block comment. -/
def blockComment : List Char → Option (List Char)
  | '/' :: '*' :: cs => closeComment 1 cs
  | _ => none

/-- Whether text begins with a documentation comment. -/
def startsDoc : List Char → Bool
  | '/' :: '/' :: '!' :: _ => true
  | '/' :: '/' :: '/' :: '/' :: _ => false
  | '/' :: '/' :: '/' :: _ => true
  | '/' :: '*' :: '!' :: _ => true
  | '/' :: '*' :: '*' :: '*' :: _ => false
  | '/' :: '*' :: '*' :: '/' :: _ => false
  | '/' :: '*' :: '*' :: _ => true
  | _ => false

/-- Drops blanks and plain comments, with at most `fuel` steps of one blank or comment each. -/
def skipGaps : Nat → List Char → List Char
  | 0, cs => cs
  | fuel + 1, cs =>
    if startsDoc cs then cs
    else
      match cs with
      | '/' :: '/' :: rest => skipGaps fuel (splitLine rest).2
      | '/' :: '*' :: rest =>
        match closeComment 1 rest with
        | some after => skipGaps fuel after
        | none => cs
      | c :: rest => if isGap c then skipGaps fuel rest else cs
      | [] => []

/-- The text of a documentation comment, whether it documents what encloses it, and the rest. -/
def docComment (cs : List Char) : Option (List Char × Bool × List Char) :=
  if !startsDoc cs then none
  else
    match cs with
    | '/' :: '/' :: mark :: body =>
      let (line, rest) := splitLine body
      some (line, mark == '!', rest)
    | '/' :: '*' :: mark :: body => do
      let rest ← blockComment cs
      let text := body.take (body.length - rest.length - 2)
      some (text, mark == '!', rest)
    | _ => none

/-- Whether every carriage return is followed by a line feed. -/
def noBareReturn : List Char → Bool
  | [] => true
  | '\r' :: '\n' :: cs => noBareReturn cs
  | '\r' :: _ => false
  | _ :: cs => noBareReturn cs

/-! ## Names -/

/-- Splits an identifier off the front of a text. -/
def plainIdentifier : List Char → Option (List Char × List Char)
  | [] => none
  | c :: cs =>
    if isIdentifierStart c then
      some (c :: cs.takeWhile isIdentifierContinue, cs.dropWhile isIdentifierContinue)
    else none

/-- Splits an identifier, raw or not, off the front of a text. -/
def identifier : List Char → Option (List Char × List Char)
  | 'r' :: '#' :: cs => do
    let (name, rest) ← plainIdentifier cs
    if neverRaw.contains (String.ofList name) then none
    else some ('r' :: '#' :: name, rest)
  | cs => plainIdentifier cs

/-- Drops the suffix that a literal may carry. -/
def skipSuffix (cs : List Char) : List Char :=
  match plainIdentifier cs with
  | some (_, rest) => rest
  | none => cs

/-- The rest itself, unless it goes on with a character of a word. -/
def wordBreak (cs : List Char) : Option (List Char) :=
  match cs with
  | c :: _ => if isIdentifierContinue c then none else some cs
  | [] => some cs

/-! ## Text literals -/

def isHexDigit (c : Char) : Bool :=
  c.isDigit || ('a' ≤ c && c ≤ 'f') || ('A' ≤ c && c ≤ 'F')

/-- The value of a digit in base 16. -/
def hexValue (c : Char) : Nat :=
  if c.isDigit then c.toNat - '0'.toNat
  else if 'a' ≤ c && c ≤ 'f' then 10 + c.toNat - 'a'.toNat
  else 10 + c.toNat - 'A'.toNat

/-- Reads the digits of an escaped code point up to the closing brace: `count` digits with the
given value were read before. -/
def codePointDigits (count value : Nat) : List Char → Option (Char × List Char)
  | [] => none
  | c :: cs =>
    if c == '_' && 0 < count then codePointDigits count value cs
    else if c == '\x7d' && 0 < count then
      if value.isValidChar then some (Char.ofNat value, cs) else none
    else if isHexDigit c && count < 6 then codePointDigits (count + 1) (value * 16 + hexValue c) cs
    else none

/-- Reads an escaped code point after the `u`. -/
def codePoint : List Char → Option (Char × List Char)
  | '\x7b' :: cs => codePointDigits 0 0 cs
  | _ => none

/-- What a literal between quotes can hold: characters, bytes, or both. -/
inductive Alphabet where
  | text
  | bytes
  | mixed
  deriving DecidableEq, Repr

/-- Whether an escape can give the byte whose first digit in base 16 has the given value. In text
a byte is at most 7F. -/
def Alphabet.admitsByte (a : Alphabet) (high : Nat) : Bool := a != .text || high < 8

/-- Whether code points can be written, plainly or as an escape. -/
def Alphabet.admitsCodePoints (a : Alphabet) : Bool := a != .bytes

/-- Whether a character can stand for itself. -/
def Alphabet.admits (a : Alphabet) (c : Char) : Bool := a.admitsCodePoints || c.toNat < 0x80

/-- The value of an escape after the backslash, and the rest. -/
def escape (a : Alphabet) : List Char → Option (Char × List Char)
  | 'n' :: cs => some ('\n', cs)
  | 'r' :: cs => some ('\r', cs)
  | 't' :: cs => some ('\t', cs)
  | '\\' :: cs => some ('\\', cs)
  | '0' :: cs => some ('\x00', cs)
  | '\'' :: cs => some ('\'', cs)
  | '"' :: cs => some ('"', cs)
  | 'x' :: high :: low :: cs =>
    if isHexDigit high && isHexDigit low && a.admitsByte (hexValue high) then
      some (Char.ofNat (hexValue high * 16 + hexValue low), cs)
    else none
  | 'u' :: cs => if a.admitsCodePoints then codePoint cs else none
  | _ => none

/-- What may stand between a line continuation and the text that goes on. -/
def isContinuationBlank (c : Char) : Bool := c == ' ' || c == '\t' || c == '\n' || c == '\r'

/-- The text that goes on after a line continuation. -/
def afterContinuation (cs : List Char) : Option (List Char) :=
  if noBareReturn (cs.takeWhile isContinuationBlank) then
    some (cs.dropWhile isContinuationBlank)
  else none

/-- The value of a literal with escapes after its opening quote, and the rest after its closing
quote. A backslash at the end of a line skips to the next text, and a line end is one line feed.
With at most `fuel` steps of one character or escape each. -/
def cookedBody (a : Alphabet) : Nat → List Char → Option (List Char × List Char)
  | 0, _ => none
  | fuel + 1, cs =>
    match cs with
    | [] => none
    | '"' :: rest => some ([], rest)
    | '\r' :: '\n' :: rest => (cookedBody a fuel rest).map fun (s, r) => ('\n' :: s, r)
    | '\r' :: _ => none
    | '\\' :: '\n' :: rest => (afterContinuation rest).bind (cookedBody a fuel)
    | '\\' :: '\r' :: '\n' :: rest => (afterContinuation rest).bind (cookedBody a fuel)
    | '\\' :: rest =>
      match escape a rest with
      | some (c, rest) => (cookedBody a fuel rest).map fun (s, r) => (c :: s, r)
      | none => none
    | c :: rest =>
      if a.admits c then
        (cookedBody a fuel rest).map fun (s, r) => (c :: s, r)
      else none

/-- The text before a closing quote followed by `hashes` number signs, and the rest. -/
def rawBody (hashes : Nat) : List Char → Option (List Char × List Char)
  | [] => none
  | '"' :: cs =>
    if (cs.take hashes).all (· == '#') && hashes ≤ cs.length then some ([], cs.drop hashes)
    else (rawBody hashes cs).map fun (s, r) => ('"' :: s, r)
  | c :: cs => (rawBody hashes cs).map fun (s, r) => (c :: s, r)

/-- The value of a raw literal after its letters, and the rest. -/
def rawLiteral (a : Alphabet) (cs : List Char) : Option (List Char × List Char) := do
  let hashes := (cs.takeWhile (· == '#')).length
  let rest := cs.dropWhile (· == '#')
  match rest with
  | '"' :: body => do
    let (value, rest) ← rawBody hashes body
    if hashes ≤ 255 && noBareReturn value && value.all a.admits then
      some (value, rest)
    else none
  | _ => none

/-- The value of a literal between double quotes after its letters, and the rest. -/
def cookedLiteral (a : Alphabet) : List Char → Option (List Char × List Char)
  | '"' :: cs => cookedBody a (cs.length + 1) cs
  | _ => none

/-- The value of a string literal at the front of a text, and the rest before its suffix. -/
def stringLiteral : List Char → Option (List Char × List Char)
  | 'r' :: cs => rawLiteral .text cs
  | cs => cookedLiteral .text cs

/-- The value of a byte string literal. -/
def byteStringLiteral : List Char → Option (List Char × List Char)
  | 'b' :: 'r' :: cs => rawLiteral .bytes cs
  | 'b' :: cs => cookedLiteral .bytes cs
  | _ => none

/-- The value of a literal for a string that ends in a zero byte; it cannot hold one. -/
def zeroEndedLiteral (cs : List Char) : Option (List Char × List Char) := do
  let (value, rest) ← match cs with
    | 'c' :: 'r' :: cs => rawLiteral .mixed cs
    | 'c' :: cs => cookedLiteral .mixed cs
    | _ => none
  if value.contains '\x00' then none else some (value, rest)

/-- One character or escape between single quotes. -/
def quotedCharacter (a : Alphabet) : List Char → Option (Char × List Char)
  | '\'' :: '\\' :: cs => do
    let (c, rest) ← escape a cs
    match rest with
    | '\'' :: rest => some (c, rest)
    | _ => none
  | '\'' :: c :: '\'' :: rest => if a.admits c then some (c, rest) else none
  | _ => none

/-- The value of a character literal. -/
def characterLiteral (cs : List Char) : Option (Char × List Char) := quotedCharacter .text cs

/-- The value of a byte literal. -/
def byteLiteral : List Char → Option (Char × List Char)
  | 'b' :: cs => quotedCharacter .bytes cs
  | _ => none

/-! ## Numbers -/

def isDigitOrUnderscore (c : Char) : Bool := c.isDigit || c == '_'

/-- The rest after an exponent, given whether a sign and a digit were read. -/
def exponent (hasSign hasDigit : Bool) : List Char → Option (List Char)
  | [] => if hasDigit then some [] else none
  | c :: cs =>
    if c == '+' || c == '-' then
      if hasDigit then some (c :: cs) else if hasSign then none else exponent true hasDigit cs
    else if c.isDigit then exponent hasSign true cs
    else if c == '_' then exponent hasSign hasDigit cs
    else if hasDigit then some (c :: cs) else none

/-- The rest after a number with a point or an exponent, before its suffix. An exponent without
digits is no part of a number that has a point. -/
def floatDigits : List Char → Option (List Char)
  | [] => none
  | c :: cs =>
    if !c.isDigit then none
    else
      match cs.dropWhile isDigitOrUnderscore with
      | '.' :: rest =>
        if (rest.head?.any fun d => d == '.' || isIdentifierStart d) then none
        else
          match rest.dropWhile isDigitOrUnderscore with
          | e :: tail =>
            if e == 'e' || e == 'E' then some ((exponent false false tail).getD (e :: tail))
            else some (e :: tail)
          | [] => some []
      | e :: tail => if e == 'e' || e == 'E' then exponent false false tail else none
      | [] => none

/-- The rest after a floating-point literal. -/
def floatLiteral (cs : List Char) : Option (List Char) := do
  let rest ← floatDigits cs
  wordBreak (skipSuffix rest)

/-- The digits of an integer in the given base and the rest. A decimal digit that is too large for
the base is an error; a letter that is too large ends the digits. -/
def baseDigits (base : Nat) (isFirst : Bool) : List Char → Option (List Char × List Char)
  | [] => if isFirst then none else some ([], [])
  | c :: cs =>
    if c == '_' then
      if isFirst && base == 10 then none
      else baseDigits base isFirst cs
    else if isHexDigit c then
      if hexValue c < base then (baseDigits base false cs).map fun (d, r) => (c :: d, r)
      else if c.isDigit || isFirst then none
      else some ([], c :: cs)
    else if isFirst then none
    else some ([], c :: cs)

/-- The base of an integer literal, its digits and the rest before its suffix. -/
def integerDigits : List Char → Option (Nat × List Char × List Char)
  | '0' :: 'x' :: cs => (baseDigits 16 true cs).map fun (d, r) => (16, d, r)
  | '0' :: 'o' :: cs => (baseDigits 8 true cs).map fun (d, r) => (8, d, r)
  | '0' :: 'b' :: cs => (baseDigits 2 true cs).map fun (d, r) => (2, d, r)
  | cs => (baseDigits 10 true cs).map fun (d, r) => (10, d, r)

/-- The rest after an integer literal. -/
def integerLiteral (cs : List Char) : Option (List Char) := do
  let (_, _, rest) ← integerDigits cs
  wordBreak (skipSuffix rest)

/-! ## Tokens -/

/-- The text of a literal that stands for a broken one. -/
def brokenLiteral : String := "(/*ERROR*/)"

def startsBroken (cs : List Char) : Bool := brokenLiteral.toList.isPrefixOf cs

/-- The rest after a literal of any kind. -/
def anyLiteral (cs : List Char) : Option (List Char) :=
  match stringLiteral cs <|> byteStringLiteral cs <|> zeroEndedLiteral cs with
  | some (_, rest) => some (skipSuffix rest)
  | none =>
    match byteLiteral cs <|> characterLiteral cs with
    | some (_, rest) => some (skipSuffix rest)
    | none =>
      if startsBroken cs then some (cs.drop brokenLiteral.length)
      else floatLiteral cs <|> integerLiteral cs

/-- Whether text begins with a punctuation character; a comment does not. -/
def startsPunct : List Char → Bool
  | '/' :: '/' :: _ => false
  | '/' :: '*' :: _ => false
  | c :: _ => "~!@#$%^&*-=+|;:,<.>/?'".toList.contains c
  | [] => false

/-- The name of a lifetime after its quote, and the rest. -/
def lifetimeName (cs : List Char) : Option (List Char × List Char) := do
  let (name, rest) ← identifier cs
  match rest with
  | '\'' :: _ => none
  | '#' :: _ => if name.take 2 == ['r', '#'] then some (name, rest) else none
  | _ => some (name, rest)

/-- Beginnings of literals, which are no identifiers even if the literal is broken. -/
def startsLiteral (cs : List Char) : Bool :=
  ["r\"", "r#\"", "r##", "b\"", "b'", "br\"", "br#", "c\"", "cr\"", "cr#"].any fun start =>
    start.toList.isPrefixOf cs

/-- A token, or one end of a group. -/
inductive Lexeme where
  | token (t : Token)
  | opening (d : Delimiter)
  | closing (d : Delimiter)
  deriving Repr

/-- The delimiter that the first character of a text opens. -/
def opens? (cs : List Char) : Option Delimiter :=
  match cs with
  | '(' :: _ => if startsBroken cs then none else some .paren
  | '[' :: _ => some .bracket
  | '\x7b' :: _ => some .brace
  | _ => none

/-- The delimiter that a character closes. -/
def closes? : Char → Option Delimiter
  | ')' => some .paren
  | ']' => some .bracket
  | '\x7d' => some .brace
  | _ => none

/-- The lexemes of a documentation comment: an attribute that holds its text. -/
def docLexemes (text : List Char) (isInner : Bool) : List Lexeme :=
  [.token (.punct '#')] ++ (if isInner then [.token (.punct '!')] else []) ++
    [.opening .bracket, .token (.ident "doc"), .token (.punct '='),
      .token (.literal (quoted (String.ofList text))), .closing .bracket]

/-- The lexemes at the front of a text that does not begin with a gap, and the rest. Identifiers
get the given line. A quote before the letters of a literal stands on its own. -/
def nextLexemes (line : Nat) (cs : List Char) : Option (List Lexeme × List Char) :=
  match docComment cs with
  | some (text, isInner, rest) =>
    if noBareReturn text then some (docLexemes text isInner, rest) else none
  | none =>
    match cs with
    | [] => none
    | c :: tail =>
      match opens? cs, closes? c with
      | some d, _ => some ([.opening d], tail)
      | _, some d => some ([.closing d], tail)
      | none, none =>
        match anyLiteral cs with
        | some rest =>
          let text := String.ofList (cs.take (cs.length - rest.length))
          some ([.token (.literal text)], rest)
        | none =>
          if startsPunct cs then
            if c == '\'' then do
              let (name, rest) ← lifetimeName tail
              if (anyLiteral tail).isSome then some ([.token (.punct c true)], tail)
              else if startsLiteral tail then none
              else some ([.token (.lifetime (String.ofList name))], rest)
            else some ([.token (.punct c (startsPunct tail))], tail)
          else if startsLiteral cs then none
          else do
            let (name, rest) ← identifier cs
            some ([.token (.ident (String.ofList name) line)], rest)

/-- All lexemes of a text whose last line has the given number, with at most `fuel` tokens. -/
def lexemes (lastLine : Nat) : Nat → List Char → Option (List Lexeme)
  | 0, _ => none
  | fuel + 1, cs =>
    match skipGaps cs.length cs with
    | [] => some []
    | c :: tail => do
      let line := lastLine - (c :: tail).count '\n'
      let (found, rest) ← nextLexemes line (c :: tail)
      let later ← lexemes lastLine fuel rest
      some (found ++ later)

/-- Builds token trees from lexemes. The stack holds, for each open group, its delimiter and the
trees before it; `done` holds the trees of the innermost group in reverse. -/
def nest : List (Delimiter × List Token) → List Token → List Lexeme → Option (List Token)
  | [], done, [] => some done.reverse
  | _ :: _, _, [] => none
  | stack, done, .token t :: rest => nest stack (t :: done) rest
  | stack, done, .opening d :: rest => nest ((d, done) :: stack) [] rest
  | [], _, .closing _ :: _ => none
  | (d, outer) :: stack, done, .closing e :: rest =>
    if d = e then nest stack (.group d done.reverse :: outer) rest else none

/-- The mark that may stand at the very beginning of a text. -/
def skipOrderMark : List Char → List Char
  | '\ufeff' :: cs => cs
  | cs => cs

/-- The token trees of a text. -/
def lexChars (cs : List Char) : Option (List Token) := do
  let cs := skipOrderMark cs
  let found ← lexemes (cs.count '\n' + 1) (cs.length + 1) cs
  nest [] [] found

/-- The token trees of a text. -/
def lex (text : String) : Option (List Token) := lexChars text.toList

end DaoGen.Code
