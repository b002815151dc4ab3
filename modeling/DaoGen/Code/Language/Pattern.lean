import DaoGen.Code.Language.Bound

/-!
# Patterns

What a value is matched against. A pattern inside another one is labelled, so that the trees of a
pattern show what it is itself.
-/
namespace DaoGen.Code.Language

/-- Whether a further alternative follows. -/
def atAlternative : Look := fun tokens =>
  atOp "|" tokens && !atOp "||" tokens && !atOp "|=" tokens

/-- One pattern or several alternatives. -/
def pattern : P :=
  .labelled .pattern
    (optOp "|" ++ call .singlePattern ++
      .repeated atAlternative (op "|" ++ call .singlePattern))

/-- A pattern without alternatives, inside of something else. -/
def innerPattern : P := .labelled .pattern (call .singlePattern)

/-! ## Ranges -/

/-- Where a range of values has no end. -/
def atRangeStop : Look := fun tokens =>
  atEnd tokens || atOp "|" tokens || atOp "=" tokens || atColon tokens || atComma tokens ||
    atOp ";" tokens || atWord "if" tokens

/-- A block whose value is known beforehand. -/
def constBlock : P := word "const" ++ block

/-- An end of a range of values. -/
def rangeBound : P :=
  let path := anyKindOfPath true
  oneOf
    [(.literal, literal), (.name, path), (.op "::", path), (.op "<", path),
      (.word "self", path), (.word "Self", path), (.word "super", path), (.word "crate", path),
      (.word "const", constBlock)]

/-- An end that a range has to have. -/
def requiredBound : P := .either atRangeStop (missing ["range upper bound"]) rangeBound

/-- Three dots are written like those of a range with its end. -/
def threeDots : P := .edited (op "...") fun _ =>
  [.leaf (.punct '.' true), .leaf (.punct '.' true), .leaf (.punct '=')]

/-- The rest of a range after its start. -/
def rangeRest : P :=
  select [(atOp "..=", op "..=" ++ requiredBound), (atOp "...", threeDots ++ requiredBound)]
    (.either (second (second atRangeStop)) (.labelled .openRange (op "..")) (op ".." ++ rangeBound))

/-- A range without a start, or what stands for the rest of a list. -/
def startlessRange : P :=
  .either (atOp "..=") (.labelled .openRange (op "..=") ++ requiredBound)
    (.either (second (second atRangeStop)) (op "..")
      (.labelled .openRange (op "..") ++ rangeBound))

/-- Whether a pattern is a range that lacks one of its ends. -/
def isOpenRange : Trees → Bool
  | [.node .pattern trees] => trees.any (isNode .openRange) && !trees.any (isMark '|')
  | _ => false

/-! ## Members -/

/-- A member called by its position, after which something has to follow. -/
def positioned (inside : P) : P := position ++ op ":" ++ inside

/-- The member of a struct pattern: a name that stands for itself, or a name or position with a
pattern. -/
def fieldPattern : P :=
  .choose fun tokens =>
    if atAnyWord ["box", "ref", "mut"] tokens then
      .asWritten (optWord "box" ++ optWord "ref" ++ optWord "mut" ++ name) fun _ =>
        atWord "box" tokens
    else
      select
        [(atName, name ++ .given (atOp ":") (op ":" ++ pattern)), (atInteger, positioned pattern)]
        (missing ["identifier or integer"])

/-- The members of a struct pattern from a given one on; two dots end them. -/
def fieldPatterns : P :=
  unlessEnd
    (attributes ++
      .either (atOp "..") (op "..")
        (fieldPattern ++ unlessEnd (op "," ++ call .fieldPatterns)))

/-! ## Single patterns -/

/-- A pattern that begins with a path. -/
def pathPattern : P :=
  .bind (anyKindOfPath true) fun path =>
    select
      [(atMacroCall path, macroCall),
        (atGroup .brace, braces (call .fieldPatterns)),
        (atGroup .paren, parens (commaSeparated pattern)),
        (atOp "..", rangeRest)]
      .empty

/-- Whether a path begins a pattern, and not a name that is bound. -/
def atPathPattern : Look := fun tokens =>
  atName tokens &&
      (second (atOp "::") tokens || second (atOp "!") tokens || second (atGroup .brace) tokens ||
        second (atGroup .paren) tokens || second (atOp "..") tokens) ||
    atWord "self" tokens && second (atOp "::") tokens || atOp "::" tokens || atOp "<" tokens ||
    atAnyWord ["Self", "super", "crate"] tokens

/-- A pattern that begins with a value. -/
def valuePattern : P := rangeBound ++ .given (atOp "..") rangeRest

/-- A name that is bound. -/
def namePattern : P :=
  .labelled .namePattern
    (optWord "ref" ++ optWord "mut" ++
      .either (atWord "self") anyName (.labelled .declaredName name) ++
      .given (atOp "@") (op "@" ++ innerPattern))

/-- A pattern among those of a slice. -/
def slicePart : P :=
  .bind pattern fun trees =>
    if isOpenRange trees then
      refuse "range pattern is not allowed unparenthesized inside slice pattern"
    else .empty

def singlePattern : P :=
  select
    [(atPathPattern, pathPattern),
      (atWord "_", word "_"),
      (atWord "box", .asWritten (word "box" ++ innerPattern) fun _ => true),
      (fun tokens => atOp "-" tokens || atLiteral tokens || atWord "const" tokens, valuePattern),
      (fun tokens => atAnyWord ["ref", "mut", "self"] tokens || atName tokens, namePattern),
      (atOp "&", op "&" ++ optWord "mut" ++ innerPattern),
      (atGroup .paren, parens (commaSeparated pattern)),
      (atGroup .bracket, brackets (commaSeparated slicePart)),
      (fun tokens => atOp ".." tokens && !atOp "..." tokens, startlessRange)]
    (noneOf
      [.name, .op "::", .op "<", .word "_", .literal, .word "const", .word "ref", .word "mut",
        .op "&", .group .paren, .group .bracket, .op ".."])

end DaoGen.Code.Language
