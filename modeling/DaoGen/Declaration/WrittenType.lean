import DaoGen.Code.TypeSyntax
import DaoGen.TypeRef

/-!
# Types from their written form

A written type becomes a `TypeRef`. A type whose shape has no description keeps its text as its
name. A type that is to be inferred or made by a macro is not known yet, and neither is one that
keeps its text and has such a part.
-/
namespace DaoGen

open Code

/-- Whether a token stands for something that is not known yet. -/
def isOpenToken : Token → Bool
  | .ident text _ => text == "_"
  | .lifetime name => name == "_"
  | .punct ch _ => ch == '!'
  | _ => false

/-- Refuses tokens with a part that is not known yet. -/
def checkKnown (tokens : List Token) : Except String Unit :=
  if anyLeafOf isOpenToken tokens then .error (textOf tokens) else .ok ()

/-- The name of a path of names. -/
def joinedPath (absolute : Bool) (names : List String) : String :=
  (if absolute then "::" else "") ++ "::".intercalate names

/-- A type that keeps its text. -/
def TypeRef.ofText (tokens : List Token) : TypeRef := .named (textOf tokens)

mutual

/-- The described type, or the text of what is not known yet. -/
def TypeRef.ofSyntax : TypeSyntax → Except String TypeRef
  | .named absolute names args => do
    let args ← TypeRef.ofArguments args
    return { name := joinedPath absolute names, args }
  | .shared target => return (← TypeRef.ofSyntax target).byRef
  | .borrowed tokens target => do
    checkKnown target
    return .ofText tokens
  | .slice element => return .slice (← TypeRef.ofSyntax element)
  | .unit => return .unit
  | .paren inner => TypeRef.ofSyntax inner
  | .infer => .error "_"
  | .macroCall tokens => .error (textOf tokens)
  | .verbatim tokens => do
    checkKnown tokens
    return .ofText tokens

/-- The arguments of a described type. -/
def TypeRef.ofArguments : List ArgumentSyntax → Except String (List (TypeArg TypeRef))
  | [] => return []
  | arg :: rest => do
    let ty ← TypeRef.ofArgument arg
    return .type .invariant ty :: (← TypeRef.ofArguments rest)

/-- The type of one argument; an argument of another sort keeps its text. -/
def TypeRef.ofArgument : ArgumentSyntax → Except String TypeRef
  | .type ty => TypeRef.ofSyntax ty
  | .other tokens => return .ofText tokens

end

end DaoGen
