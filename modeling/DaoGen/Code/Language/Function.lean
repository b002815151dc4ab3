import DaoGen.Code.Language.Type
import DaoGen.Code.Language.Statement

/-!
# Functions

What functions have in common, wherever they stand: visibility, parameters, results and bodies.
Where a macro is called in place of an item, its input ends the item.
-/
namespace DaoGen.Code.Language

/-! ## Visibility and macros -/

/-- Whether a visibility is restricted, and what stands in round brackets is no type. -/
def atRestriction : Look
  | .group .paren [.ident text _] :: _ => ["crate", "self", "super"].contains text
  | .group .paren (.ident "in" _ :: _) :: _ => true
  | _ => false

def restriction : P := parens (.either (atWord "in") (word "in" ++ plainPath) anyName)

def visibility : P :=
  .given (atWord "pub") (.labelled .modifier (word "pub" ++ .given atRestriction restriction))

/-- What makes the input of a macro an item: it is in braces, or a semicolon follows it. -/
def macroInput : P :=
  .bind rawGroup fun trees =>
    match trees with
    | [.leaf (.group .brace _)] => .empty
    | _ => op ";"

/-- The call of a macro among the members of something. -/
def memberMacro : P := .labelled .otherItem (plainPath ++ op "!" ++ macroInput)

/-- The call of a macro among items, which may give the item a name. -/
def itemMacro : P :=
  .labelled .otherItem
    (plainPath ++ op "!" ++
      select [(atWord "try", anyName), (atName, name)] .empty ++ macroInput)

/-- What the call of a macro can begin with. -/
def macroChoices : List Choice :=
  [.name, .word "self", .word "super", .word "crate", .op "::"]

def atMacro : Look := fun tokens => macroChoices.any fun choice => choice.ahead tokens

/-! ## Functions -/

/-- A receiver, and no pattern that begins like one. -/
def atReceiver : Look := fun tokens =>
  let target :=
    match tokens with
    | .punct '&' _ :: .lifetime _ :: rest => rest
    | .punct '&' _ :: rest => rest
    | _ => tokens
  let self :=
    match target with
    | .ident "mut" _ :: rest => rest
    | _ => target
  atWord "self" self && !second (atOp "::") self &&
    (atOp "&" tokens || !(second (atOp ":") self && third (atOp "...") self))

/-- A receiver; one that is no reference may have a type of its own. -/
def receiver : P :=
  .labelled .receiver
    (.either (atOp "&")
      (op "&" ++ optLifetime ++ optWord "mut" ++ word "self")
      (optWord "mut" ++ word "self" ++ .given (atOp ":") (op ":" ++ call (.type true))))

/-- A parameter with its pattern. A mere type with arguments stands for one without a name. -/
def typedParameter : P :=
  .edited
    (.either (fun tokens => atName tokens && second (atOp "<") tokens)
      (call (.type true))
      (innerPattern ++ op ":" ++
        .either (atOp "...") (op "..." ++ unlessEnd (op ",")) (call (.type true))))
    fun trees =>
      match trees with
      | [type] => [.leaf (.ident "_"), .leaf (.punct ':'), type]
      | _ => trees

/-- Whether what was read is the parameter that stands for any number of further ones. -/
def isFurther (trees : Trees) : Bool := !trees.any (isNode .type)

/-- The parameters of a function from a given place on. Only the first one can be a receiver. -/
def parameters (place : ParameterPlace) : P :=
  let next (place : ParameterPlace) := unlessEnd (op "," ++ call (.parameters place))
  unlessEnd
    (.choose fun start =>
      let tokens := afterAttributes start
      if atOp "..." tokens then attributes ++ op "..." ++ unlessEnd (op ",")
      else if atReceiver tokens then
        attributes ++ receiver ++
          match place with
          | .first => next .afterReceiver
          | .afterReceiver => refuse "unexpected second method receiver"
          | .later => refuse "unexpected method receiver"
      else
        .bind
          (.edited (attributes ++ typedParameter) fun trees =>
            if isFurther trees then trees else [.node .parameter trees])
          fun trees =>
            if trees.any (isNode .parameter) then
              next (if place = .afterReceiver then place else .later)
            else .empty)

/-- The tokens after what can stand before `fn`. -/
def skipQualifiers (safeAllowed : Bool) (tokens : List Token) : List Token :=
  let skip (look : Look) (tokens : List Token) := if look tokens then tokens.drop 1 else tokens
  let rest := skip (atWord "async") (skip (atWord "const") tokens)
  let rest := if safeAllowed && atWord "safe" rest then rest.drop 1 else skip (atWord "unsafe") rest
  if atWord "extern" rest then skip atString (rest.drop 1) else rest

def atFunction (safeAllowed : Bool) : Look := fun tokens =>
  atWord "fn" (skipQualifiers safeAllowed tokens)

/-- A function without its body. Where it may be called safe, it is then kept as written. -/
def signature (safeAllowed : Bool) : P :=
  .labelled .signature
    (optWord "const" ++ optWord "async" ++
      (if safeAllowed then .either (atWord "safe") (.labelled .keptItem (word "safe"))
        (optWord "unsafe") else optWord "unsafe") ++
      convention ++ word "fn" ++ .labelled .declaredName name ++ generics ++
      parens (call (.parameters .first)) ++
      .given (atOp "->") (.labelled .returnType (op "->" ++ call (.type true))) ++ whereClause)

def body : P := .labelled .body block

/-- Keeps an item as written if a test holds of what was read. -/
def keptIf (applies : Trees → Bool) (inside : P) : P :=
  .edited inside fun trees =>
    [.node (if applies trees then .keptItem else .otherItem) trees]

/-- A function with its body; one without is kept as written. -/
def function : P :=
  keptIf (fun trees => trees.any (isMark ';'))
    (signature false ++ .either (atOp ";") (op ";") body)

end DaoGen.Code.Language
