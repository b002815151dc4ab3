import DaoGen.Code.Language

/-!
# Types as written

`TypeSyntax` is the shape of a type as far as a declaration needs it: named types with their
arguments, references, slices, the unit type and round brackets. A type of any other shape is
kept as its tokens.
-/
namespace DaoGen.Code

mutual

/-- A type as written in a declaration. -/
inductive TypeSyntax where
  /-- a path whose only arguments stand after its last name -/
  | named (absolute : Bool) (names : List String) (arguments : List ArgumentSyntax)
  /-- a reference without a lifetime that cannot write -/
  | shared (target : TypeSyntax)
  /-- a reference with a lifetime or one that can write, with the tokens of its target -/
  | borrowed (tokens target : List Token)
  | slice (element : TypeSyntax)
  | unit
  | paren (inner : TypeSyntax)
  | infer
  | macroCall (tokens : List Token)
  | verbatim (tokens : List Token)
  deriving Repr, Inhabited

/-- An argument of a type: a type, or anything else as its tokens. -/
inductive ArgumentSyntax where
  | type (type : TypeSyntax)
  | other (tokens : List Token)
  deriving Repr, Inhabited

end

/-- What is read from one tree, from what its children gave. -/
inductive TypeReading where
  | nothing
  | inside (readings : List TypeReading)
  | lifetime
  | type (type : TypeSyntax)
  | argument (argument : ArgumentSyntax)
  | arguments (arguments : List ArgumentSyntax) (hasLifetime : Bool)
  | segment (name : String) (arguments : Option (List ArgumentSyntax × Bool))
  | path (absolute : Bool) (segments : List (String × Option (List ArgumentSyntax × Bool)))
  deriving Inhabited

namespace TypeReading

def type? : TypeReading → Option TypeSyntax
  | .type t => some t
  | _ => none

def argument? : TypeReading → Option ArgumentSyntax
  | .argument a => some a
  | _ => none

def isLifetime : TypeReading → Bool
  | .lifetime => true
  | _ => false

def arguments? : TypeReading → Option (List ArgumentSyntax × Bool)
  | .arguments args hasLifetime => some (args, hasLifetime)
  | _ => none

def segment? : TypeReading → Option (String × Option (List ArgumentSyntax × Bool))
  | .segment name args => some (name, args)
  | _ => none

def path? : TypeReading → Option (Bool × List (String × Option (List ArgumentSyntax × Bool)))
  | .path absolute segments => some (absolute, segments)
  | _ => none

def inside? : TypeReading → Option (List TypeReading)
  | .inside readings => some readings
  | _ => none

/-- The only type inside a group of brackets. -/
def onlyType? : TypeReading → Option TypeSyntax
  | .inside [.type t] => some t
  | _ => none

/-- A path is a named type if no name but the last has arguments and none of these is a
lifetime; otherwise its tokens are kept. -/
def ofPath (tokens : List Token) (absolute : Bool)
    (segments : List (String × Option (List ArgumentSyntax × Bool))) : TypeSyntax :=
  let names := segments.map (·.1)
  match segments.reverse with
  | [] => .verbatim tokens
  | (_, last) :: earlier =>
    if earlier.any (·.2.isSome) then .verbatim tokens
    else
      match last with
      | none => .named absolute names []
      | some (args, hasLifetime) =>
        if hasLifetime then .verbatim tokens else .named absolute names args

/-- The text of the first identifier. -/
def firstName (tokens : List Token) : String :=
  match tokens with
  | .ident text _ :: _ => text
  | _ => ""

def startsWithColon : List Token → Bool
  | .punct ':' _ :: _ => true
  | _ => false

/-- Whether a reference names a lifetime or can write. -/
def isBorrow : List Token → Bool
  | _ :: .lifetime _ :: _ => true
  | _ :: .ident "mut" _ :: _ => true
  | _ => false

/-- What a labelled part reads from its children. -/
def ofPart (part : Part) (children : List (ParseTree Part)) (readings : List TypeReading) :
    TypeReading :=
  let tokens := tokensOf children
  match part with
  | .type => (readings.findSome? type?).elim .nothing .type
  | .pathType =>
    match readings.findSome? path? with
    | some (absolute, segments) => .type (ofPath tokens absolute segments)
    | none => .nothing
  | .path => .path (startsWithColon tokens) (readings.filterMap segment?)
  | .segment => .segment (firstName tokens) (readings.findSome? arguments?)
  | .arguments => .arguments (readings.filterMap argument?) (readings.any isLifetime)
  | .lifetimeArgument => .lifetime
  | .constArgument => .argument (.other tokens)
  | .typeArgument =>
    match readings with
    | [.type t] => .argument (.type t)
    | _ => .argument (.other tokens)
  | .referenceType =>
    if isBorrow tokens then
      .type (.borrowed tokens (children.getLast?.elim [] ParseTree.tokens))
    else
      match readings.findSome? type? with
      | some target => .type (.shared target)
      | none => .nothing
  | .sliceType =>
    match readings.findSome? onlyType? with
    | some element => .type (.slice element)
    | none => .type (.verbatim tokens)
  | .parenType =>
    match readings.findSome? onlyType? with
    | some inner => .type (.paren inner)
    | none => .type (.verbatim tokens)
  | .unitType => .type .unit
  | .inferType => .type .infer
  | .macroType => .type (.macroCall tokens)
  | .boundType | .otherType => .type (.verbatim tokens)
  | _ => .nothing

mutual

/-- Reads a tree from the bottom up. -/
def ofTree : ParseTree Part → TypeReading
  | .leaf _ => .nothing
  | .group _ children => .inside (ofTrees children)
  | .node part children => ofPart part children (ofTrees children)

/-- Reads a sequence of trees. -/
def ofTrees : List (ParseTree Part) → List TypeReading
  | [] => []
  | tree :: rest => ofTree tree :: ofTrees rest

end

end TypeReading

/-- The type that a labelled type stands for. -/
def TypeSyntax.ofTree (tree : ParseTree Part) : TypeSyntax :=
  ((TypeReading.ofTree tree).type?).getD (.verbatim tree.tokens)

end DaoGen.Code
