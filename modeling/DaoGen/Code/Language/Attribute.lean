import DaoGen.Code.Language.Basic

/-!
# Attributes

The plain paths, attributes and lists of arguments of the source language. What an attribute takes
in brackets is not read; what it takes after an equals sign is a literal or another expression.
-/
namespace DaoGen.Code.Language

/-! ## Plain paths -/

/-- Whether an identifier can be part of a plain path. -/
def isPathName (text : String) : Bool :=
  isName text || ["super", "self", "Self", "crate"].contains text

def atPathName : Look
  | .ident text _ :: _ => isPathName text
  | _ => false

/-- Why no name of a path is ahead. -/
def pathNameFault (isFirst : Bool) (tokens : List Token) : GrammarFault :=
  if isFirst then nameFault tokens
  else .expected ["path segment after `::`"] tokens.isEmpty

/-- Splits names with `::` between them off the front. -/
def takePathNames (isFirst : Bool) :
    List Token → Except GrammarFault (List Token × List Token)
  | .ident text line :: .punct ':' true :: .punct ':' joint :: rest =>
    if isPathName text then do
      let (names, rest) ← takePathNames false rest
      return (.ident text line :: .punct ':' true :: .punct ':' :: names, rest)
    else .error (pathNameFault isFirst (.ident text line :: .punct ':' joint :: rest))
  | .ident text line :: rest =>
    if isPathName text then .ok ([.ident text line], rest)
    else .error (pathNameFault isFirst (.ident text line :: rest))
  | tokens => .error (pathNameFault isFirst tokens)

theorem takePathNames_isSuffix {isFirst : Bool} {tokens taken rest : List Token}
    (h : takePathNames isFirst tokens = .ok (taken, rest)) : rest <:+ tokens := by
  fun_induction takePathNames isFirst tokens generalizing taken with
  | case1 isFirst text line joint later hname ih =>
    cases hmore : takePathNames false later with
    | error fault =>
      rw [hmore] at h
      cases h
    | ok more =>
      rw [hmore] at h
      cases h
      exact (ih hmore).trans (List.suffix_append [_, _, _] _)
  | case3 =>
    cases h
    exact List.suffix_cons _ _
  | case2 | case4 | case5 => cases h

/-- A path of names without arguments. -/
def plainPath : P := optOp "::" ++ .take ⟨takePathNames true, takePathNames_isSuffix⟩

/-- What follows a plain path. -/
def afterPlainPath? (tokens : List Token) : Option (List Token) :=
  let names := (takeOperator "::" tokens).elim tokens (·.2)
  match takePathNames true names with
  | .ok (_, rest) => some rest
  | .error _ => none

/-! ## Attributes -/

/-- The value in an attribute. A literal stands for itself if nothing follows it; otherwise it is
part of an expression. -/
def attributeValue : P :=
  .labelled .attributeValue (.choose fun tokens =>
    match takeLiteral tokens with
    | some (_, []) => .labelled (.expression .literal) literal
    | _ =>
      if atOp "#" tokens && second (atGroup .bracket) tokens then
        refuse "unexpected attribute inside of attribute"
      else call (.expression true))

/-- What follows the path of an attribute. -/
def attributeArguments : P :=
  select [(atAnyGroup, rawGroup), (atOp "=", op "=" ++ attributeValue)] .empty

def attributeContent : P :=
  .labelled .attributePath (.either (atWord "unsafe") (word "unsafe") plainPath) ++
    attributeArguments

def attributes : P :=
  .repeated (atOp "#") (.labelled .attribute (op "#" ++ brackets attributeContent))

def innerAttributes : P :=
  .repeated (fun tokens => atOp "#" tokens && second (atOp "!") tokens)
    (.labelled .innerAttribute (op "#" ++ op "!" ++ brackets attributeContent))

/-- A block that may have attributes of its own. -/
def block : P := braces (innerAttributes ++ call .statements)

/-! ## Arguments -/

/-- A path of any words, reserved ones included. -/
def anyPath : P := anyName ++ .repeated (atOp "::") (op "::" ++ anyName)

/-- A literal. A truth word before an equals sign is a name. -/
def atLiteralArgument : Look := fun tokens =>
  atLiteral tokens && !(atAnyWord ["true", "false"] tokens && second (atOp "=") tokens)

def argument : P :=
  select
    [(atLiteralArgument, .labelled .literalArgument literal),
      (atAnyName,
        .labelled .namedArgument (.labelled .attributePath anyPath ++ attributeArguments))]
    (missing ["identifier or literal"])

def argumentList : P := commaSeparated argument

end DaoGen.Code.Language
