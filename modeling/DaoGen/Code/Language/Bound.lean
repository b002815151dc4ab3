import DaoGen.Code.Language.Attribute

/-!
# Paths, bounds and generics

Paths with arguments, the bounds of types, generic parameters and the conditions on them. In every
list of arguments or parameters the lifetimes come first; a text that has them in another order is
written as if it had them in this one.
-/
namespace DaoGen.Code.Language

/-! ## The order of arguments -/

def isLifetimeTree : ParseTree Part → Bool
  | .leaf (.lifetime _) => true
  | .node .lifetimeArgument _ => true
  | .node .lifetimeParam _ => true
  | _ => false

/-- The members of a list, each with whether a comma follows it. -/
def membersOf : Trees → List (ParseTree Part × Bool)
  | [] => []
  | tree :: rest =>
    if isMark ',' tree then membersOf rest
    else (tree, rest.head?.any (isMark ',')) :: membersOf rest

/-- Members with a comma between two neighbours, and one at the end if the last one has it. -/
def joinMembers : List (ParseTree Part × Bool) → Trees
  | [] => []
  | [(tree, hasComma)] => tree :: if hasComma then [.leaf (.punct ',')] else []
  | (tree, _) :: rest => tree :: .leaf (.punct ',') :: joinMembers rest

/-- A list with the lifetimes first. -/
def lifetimesFirst (trees : Trees) : Trees :=
  let (lifetimes, others) := (membersOf trees).partition fun member => isLifetimeTree member.1
  joinMembers (lifetimes ++ others)

/-- Members between angle brackets. -/
def angled (member : P) : P :=
  op "<" ++ .edited (separated (atOp ">") (op ",") member) lifetimesFirst ++ op ">"

/-! ## Bounds -/

/-- Whether a path has no arguments. -/
def isPlainPath : Trees → Bool
  | [.node .path children] => children.all fun tree =>
    match tree with
    | .node .segment names => !names.any (isNode .arguments)
    | _ => true
  | _ => false

/-- An empty list of arguments. -/
def isEmptyArguments : ParseTree Part → Bool
  | .node .arguments children => children.all fun tree =>
    match tree with
    | .leaf _ => true
    | _ => false
  | _ => false

/-- Whether the last name of a path has no arguments, or an empty list of them. -/
def takesParens : Trees → Bool
  | [.node .path children] =>
    match children.getLast? with
    | some (.node .segment names) =>
      !names.any fun tree => isNode .arguments tree && !isEmptyArguments tree
    | _ => false
  | _ => false

/-- A path without an empty list of arguments after its last name. -/
def dropEmptyArguments : ParseTree Part → ParseTree Part
  | .node .path children =>
    match children.getLast? with
    | some (.node .segment names) =>
      .node .path (children.dropLast ++
        [.node .segment (names.filter fun tree => !isEmptyArguments tree)])
    | _ => .node .path children
  | tree => tree

/-- The arguments of a trait for functions, and its result. -/
def parenArguments : P :=
  parens (commaSeparated (call (.type true))) ++
    .given (atOp "->") (op "->" ++ call (.type false))

def atParenArguments : Look := fun tokens =>
  atGroup .paren tokens || atOp "::" tokens && third (atGroup .paren) tokens

/-- The path of a trait. Arguments in round brackets stand in place of an empty list of other
ones. -/
def boundPath : P :=
  .edited
    (.bind (call .path) fun path =>
      if takesParens path then
        .given atParenArguments (.edited (optOp "::") (fun _ => []) ++ parenArguments)
      else .empty)
    fun trees =>
      match trees with
      | path :: arguments@(_ :: _) => dropEmptyArguments path :: arguments
      | _ => trees

/-- A mark of bounds that hold of constants, where it is allowed. -/
def constMark (allowed : Bool) : P :=
  select
    [(atGroup .bracket,
        .labelled .constMark (brackets (word "const")) ++
          if allowed then .empty else refuse "`[const]` is not allowed here"),
      (atWord "const",
        .labelled .constMark (word "const") ++
          if allowed then .empty else refuse "`const` is not allowed here")]
    .empty

/-- Whether a bound has a mark of constants, perhaps inside round brackets. -/
def hasConstMark : Trees → Bool
  | [.group .paren children] => children.any (isNode .constMark)
  | trees => trees.any (isNode .constMark)

/-- The names that the hidden type of a result uses. -/
def captures : P :=
  word "use" ++ op "<" ++
    .edited
      (.repeated (fun tokens => !atOp ">" tokens)
        (select [(atLifetime, lifetime), (atName, name), (atWord "Self", word "Self")]
            (noneOf [.lifetime, .name, .op ">"]) ++
          .either (atOp ">") .empty (oneOf [(.op ",", op ","), (.op ">", .empty)])))
      lifetimesFirst ++
    op ">"

def bindersRefusal : P :=
  refuse "`for<...>` binder not allowed with `?` trait polarity modifier"

/-- What can begin a bound after a plus sign. -/
def startsBound (constAllowed : Bool) : Look := fun tokens =>
  atAnyName tokens || atOp "::" tokens || atOp "?" tokens || atLifetime tokens ||
    atGroup .paren tokens ||
    constAllowed && (atGroup .bracket tokens || atWord "const" tokens)

/-- A bound that is a trait, without brackets around it. -/
def traitBound (constAllowed : Bool) : P :=
  .bind (.given (atWord "for") (call .binders)) fun binders =>
    constMark constAllowed ++
      .given (atOp "?")
        (op "?" ++
          if binders.isEmpty then .given (atWord "for") (call .binders ++ bindersRefusal)
          else bindersRefusal) ++
      boundPath

/-- One bound. One with a mark of constants is kept as written. -/
def bound (capturesAllowed constAllowed : Bool) : P :=
  select
    [(atLifetime, lifetime),
      (atWord "use", captures ++ if capturesAllowed then .empty else
        refuse "`use<...>` precise capturing syntax is not allowed here")]
    (.labelled .bound
      (.asWritten
        (.either (atGroup .paren) (parens (traitBound constAllowed)) (traitBound constAllowed))
        hasConstMark))

/-- The bounds of a parameter or an associated type. -/
def declaredBound : P := bound false true

/-- A colon and bounds. A colon without bounds is not written. -/
def colonBounds (inside : P) : P :=
  .given (atOp ":") (.labelled .bounds
    (.edited (op ":" ++ inside) fun trees => if trees.length ≤ 1 then [] else trees))

/-! ## Paths -/

def atAngleEnd : Look := atOp ">"

/-- What can stand for a constant among the arguments of a type. -/
def constArgument : P :=
  select [(atLiteral, literal), (atName, name), (atGroup .brace, block)] (missing [])

/-- A constant that needs no name. -/
def atConstArgument : Look := fun tokens => atLiteral tokens || atGroup .brace tokens

/-- Whether a type is a single name, perhaps with arguments. -/
def isSingleName : Trees → Bool
  | [.node .type [.node .pathType [.node .path [.node .segment _]]]] => true
  | _ => false

/-- What follows the name of an associated item: its value or its bounds. -/
def associated : P :=
  select
    [(atOp "=", op "=" ++ .either atConstArgument constArgument (call (.type true))),
      (atOp ":", op ":" ++
        chainUpTo "+" (fun tokens => atComma tokens || atAngleEnd tokens) declaredBound)]
    .empty

def typeArgument : P :=
  select
    [(fun tokens => atLifetime tokens && !second (atOp "+") tokens,
        .labelled .lifetimeArgument lifetime),
      (atConstArgument, .labelled .constArgument constArgument)]
    (.labelled .typeArgument
      (.bind (call (.type true)) fun type =>
        if isSingleName type then associated else .empty))

def typeArguments : P := .labelled .arguments (optOp "::" ++ angled typeArgument)

/-- Whether the arguments of a name are ahead. In an expression they follow `::`. -/
def atArguments (inExpression : Bool) : Look := fun tokens =>
  !inExpression && atOp "<" tokens && !atOp "<=" tokens && !atOp "<<=" tokens ||
    atOp "::" tokens && third (atOp "<") tokens

/-- One name of a path. -/
def segment (inExpression : Bool) : P :=
  .labelled .segment
    (.either (atAnyWord ["super", "self", "crate", "try"]) anyName
      (.either (atWord "Self") anyName name ++ .given (atArguments inExpression) typeArguments))

def pathWith (inExpression : Bool) : P :=
  .labelled .path
    (optOp "::" ++ segment inExpression ++
      .repeated (fun tokens => atOp "::" tokens && !third (atGroup .paren) tokens)
        (op "::" ++ segment inExpression))

/-- A path through a type, as in `<T as Trait>::Name`. -/
def qualifiedPath (inExpression : Bool) : P :=
  .labelled .qualifiedPath
    (op "<" ++ call (.type true) ++ .given (atWord "as") (word "as" ++ call .path) ++ op ">" ++
      op "::" ++ segment inExpression ++ .repeated (atOp "::") (op "::" ++ segment inExpression))

/-- A path of either kind. -/
def anyKindOfPath (inExpression : Bool) : P :=
  .either (atOp "<") (qualifiedPath inExpression) (pathWith inExpression)

/-- The call of a macro after a path that can name one. -/
def atMacroCall (path : Trees) : Look := fun tokens => isPlainPath path && atBang tokens

def macroCall : P := op "!" ++ rawGroup

/-! ## Generics -/

/-- A default value or type. -/
def value (inside : P) : P := .given (atOp "=") (.labelled .value (op "=" ++ inside))

/-- A colon and the bounds of a parameter. A colon without bounds leaves nothing. -/
def parameterBounds (inside : P) : P :=
  .given (atOp ":") (.edited (op ":" ++ inside) fun trees =>
    if trees.length ≤ 1 then [] else [.node .bounds trees])

def lifetimeParam : P :=
  lifetime ++
    parameterBounds (chainUpTo "+"
      (fun tokens => atEnd tokens || atComma tokens || atAngleEnd tokens) lifetime)

def typeParam : P :=
  name ++
    parameterBounds (chainUpTo "+"
      (fun tokens => atComma tokens || atAngleEnd tokens || atOp "=" tokens) declaredBound) ++
    value (call (.type true))

def constParam : P :=
  word "const" ++ name ++ op ":" ++ call (.type true) ++ value constArgument

/-- A generic parameter: after its attributes one of some productions. -/
def genericParam (alternatives : P) : P :=
  .edited (attributes ++ alternatives) fun trees =>
    let isLifetime := (trees.filter fun tree => !isNode .attribute tree).head?.any isLifetimeTree
    [.node (if isLifetime then .lifetimeParam else .typeParam) trees]

/-- The parameters that a `for` binds. -/
def binders : P :=
  word "for" ++ op "<" ++
    separated atAngleEnd (op ",")
      (genericParam (oneOf
        [(.name, typeParam), (.lifetime, lifetimeParam), (.word "const", constParam)])) ++
    op ">"

/-- Whether generic parameters follow a keyword, and no path through a type. -/
def atGenerics : Look := fun tokens =>
  atOp "<" tokens &&
    (second (atOp ">") tokens || second (atOp "#") tokens ||
      (second atLifetime tokens || second atName tokens) &&
        (third (atOp ">") tokens || third (atOp ",") tokens || third atColon tokens ||
          third (atOp "=") tokens) ||
      second (atWord "const") tokens)

/-- Generic parameters; an empty list of them is not written. -/
def generics : P :=
  .given (atOp "<") (.labelled .generics
    (.edited
      (angled (genericParam (select
        [(atLifetime, lifetimeParam), (atName, typeParam), (atWord "const", constParam),
          (atWord "_", anyName)]
        (noneOf [.lifetime, .name, .word "const"]))))
      fun trees => if trees.any (isNode .lifetimeParam) || trees.any (isNode .typeParam)
        then trees else []))

/-- Where a list of conditions ends, or bounds in one. -/
def atConditionEnd (colon : Look) : Look := fun tokens =>
  atEnd tokens || atGroup .brace tokens || atComma tokens || atOp ";" tokens || colon tokens ||
    atOp "=" tokens

/-- A condition on a lifetime or a type. -/
def condition : P :=
  .either (fun tokens => atLifetime tokens && second (atOp ":") tokens)
    (lifetime ++ op ":" ++ chainUpTo "+" (atConditionEnd (atOp ":")) lifetime)
    (.given (atWord "for") (call .binders) ++ call (.type true) ++ op ":" ++
      chainUpTo "+" (atConditionEnd atColon) declaredBound)

/-- Conditions on generic parameters; an empty list of them is not written. -/
def whereClause : P :=
  .given (atWord "where") (.labelled .whereClause
    (.edited
      (word "where" ++
        .either atGenerics
          (refuse "generic parameters on `where` clauses are reserved for future use")
          (chainUpTo "," (atConditionEnd atColon) condition))
      fun trees => if trees.length ≤ 1 then [] else trees))

end DaoGen.Code.Language
