import DaoGen.Code.Language.Definition

/-!
# Traits, implementations and foreign items

Items that have members. A function of a trait is a method unless something stands before it that
a method cannot have.
-/
namespace DaoGen.Code.Language

/-! ## Traits -/

/-- Keeps a member as written if it has a modifier it cannot have, or is to be kept for another
reason. -/
def keptMember (inside : P) : P :=
  .asWritten inside fun trees => trees.any (isNode .modifier) || trees.any (isNode .keptItem)

/-- A function of a trait, with or without a body. -/
def traitFunction : P :=
  signature false ++ oneOf [(.group .brace, body), (.op ";", op ";")]

/-- A constant of a trait; a function may begin like one. -/
def traitConstant : P :=
  .either (second (atAnyWord ["async", "unsafe", "extern", "fn"])) traitFunction
    (.edited
      (word "const" ++
        .either atConstantName constantRest
          (noneOf [.name, .word "_", .word "async", .word "unsafe", .word "extern", .word "fn"]))
      fun trees => [.node (if hasGenerics trees then .keptItem else .otherItem) trees])

/-- A member of a trait. Only a function without a modifier is a method. -/
def traitMember : P :=
  .edited
    (keptMember
      (attributes ++
        .bind (visibility ++ .given (atWord "default") (.labelled .modifier (word "default")))
          fun modifiers =>
            let macros := if modifiers.isEmpty then macroChoices else []
            select
              [(atFunction false, traitFunction),
                (atWord "const", traitConstant),
                (atWord "type", .labelled .otherItem (typeDefinition false true)),
                (fun tokens => macros.any fun choice => choice.ahead tokens, memberMacro)]
              (noneOf ([.word "fn", .word "const", .word "type"] ++ macros))))
    fun trees => if trees.any (isNode .signature) then [.node .method trees] else trees

/-- The bounds of a trait up to where the test holds. -/
def traitBounds (stop : Look) : P := separated stop (op "+") declaredBound

/-- The members of something in braces. -/
def members (member : P) : P :=
  braces (innerAttributes ++ .repeated (fun tokens => !atEnd tokens) member)

/-- A trait after its generic parameters. -/
def traitRest : P :=
  colonBounds (traitBounds fun tokens => atWord "where" tokens || atGroup .brace tokens) ++
    whereClause ++ members traitMember

/-- Another name for a sum of bounds. -/
def traitAliasRest : P :=
  op "=" ++ traitBounds (fun tokens => atWord "where" tokens || atOp ";" tokens) ++ whereClause ++
    op ";"

def traitHead : P := word "trait" ++ .labelled .declaredName name ++ generics

/-- A trait that may be unsafe or hold by itself. -/
def markedTrait : P :=
  .labelled .traitItem (optWord "unsafe" ++ optWord "auto" ++ traitHead ++ traitRest)

/-- A trait or another name for bounds. -/
def traitItem : P :=
  .edited
    (traitHead ++
      oneOf
        [(.group .brace, traitRest), (.op ":", traitRest), (.word "where", traitRest),
          (.op "=", traitAliasRest)])
    fun trees =>
      [.node (if trees.any (isMark '=') then .otherItem else .traitItem) trees]

/-! ## Implementations -/

/-- A member of an implementation. -/
def implMember : P :=
  .asWritten
    (attributes ++
      .bind visibility fun visibility =>
        .choose fun start =>
          let isDefault := atWord "default" start && !second (atOp "!") start
          let macros := if visibility.isEmpty && !isDefault then macroChoices else []
          let defaults : List Choice := if isDefault then [] else [.word "default"]
          .given (fun _ => isDefault) (word "default") ++
            select
              [(atFunction false, function),
                (atWord "const", constant),
                (atWord "type",
                  keptIf (fun trees => hasBounds trees || !hasValue trees)
                    (typeDefinition false true)),
                (fun tokens => macros.any fun choice => choice.ahead tokens, memberMacro)]
              (noneOf (defaults ++ [.word "fn", .word "const", .word "type"] ++ macros)))
    fun trees => trees.any (isNode .keptItem)

/-- Whether the target of an implementation can be a trait. -/
def isTraitPath : Trees → Bool
  | [.node .type [.node .pathType _]] => true
  | _ => false

/-- What an implementation is of, and for which type; `isNegative` says that it denies a trait. -/
def implTarget (isNegative : Bool) : P :=
  .bind (call (.type true)) fun target =>
    .either (atWord "for")
      ((if isTraitPath target then .empty else .labelled .keptItem .empty) ++ word "for" ++
        call (.type true))
      (if isNegative then refuse "inherent impls cannot be negative" else .empty)

/-- The mark of an implementation that is known beforehand, which is kept as written. -/
def implConstMark : P :=
  .given
    (fun tokens => atWord "const" tokens || atOp "?" tokens && second (atWord "const") tokens)
    (.labelled .keptItem (optOp "?" ++ word "const"))

/-- An implementation. One with a visibility is kept as written. -/
def implItem (hasVisibility : Bool) : P :=
  keptIf (fun trees => hasVisibility || trees.any (isNode .keptItem))
    (optWord "default" ++ optWord "unsafe" ++ word "impl" ++ .given atGenerics generics ++
      implConstMark ++
      .either (fun tokens => atOp "!" tokens && !second (atGroup .brace) tokens)
        (op "!" ++ implTarget true) (implTarget false) ++
      whereClause ++ members implMember)

/-! ## Foreign items -/

/-- A foreign function; one that has a body or is called safe is kept as written. -/
def foreignFunction : P :=
  .bind (signature true) fun signature =>
    let isSafe := signature.any fun tree =>
      match tree with
      | .node .signature children => children.any (isNode .keptItem)
      | _ => false
    .either (atGroup .brace) (.labelled .keptItem body)
      (if isSafe then .labelled .keptItem (op ";") else op ";")

/-- A foreign static value. -/
def foreignStatic : P :=
  let mark (text : String) :=
    Production.given (atWord text) (.labelled .keptItem (word text))
  .choose fun start =>
    (if atWord "unsafe" start then mark "unsafe" else mark "safe") ++ word "static" ++
      optWord "mut" ++ name ++ op ":" ++ call (.type true) ++
      .given (atOp "=") (.labelled .keptItem (op "=" ++ anyExpression)) ++ op ";"

def atForeignStatic : Look := fun tokens =>
  atWord "static" tokens ||
    atAnyWord ["unsafe", "safe"] tokens && second (atWord "static") tokens

def foreignMember : P :=
  .asWritten
    (attributes ++
      .bind visibility fun visibility =>
        let macros := if visibility.isEmpty then macroChoices else []
        select
          [(atFunction true, foreignFunction),
            (atForeignStatic, foreignStatic),
            (atWord "type",
              keptIf (fun trees => hasBounds trees || hasValue trees) (typeDefinition true true)),
            (fun tokens => macros.any fun choice => choice.ahead tokens, memberMacro)]
          (noneOf ([.word "fn", .word "static", .word "type"] ++ macros)))
    fun trees => trees.any (isNode .keptItem)

/-- Items from outside; they have no visibility of their own. -/
def foreignItem (hasVisibility : Bool) : P :=
  if hasVisibility then fail (.expected [quoted "extern"] false)
  else
    .labelled .otherItem
      (optWord "unsafe" ++ word "extern" ++ .given atString literal ++ members foreignMember)

/-- The name that something gets in this place. -/
def rename (missingName : P) : P :=
  .given (atWord "as")
    (word "as" ++ select [(atWord "_", anyName), (atName, name)] missingName)

def externCrate : P :=
  .labelled .otherItem
    (word "extern" ++ word "crate" ++ .either (atWord "self") anyName name ++ rename name ++
      op ";")

/-- What begins with `extern`, if it is no function. -/
def externItem (hasVisibility : Bool) : P :=
  .choose fun tokens =>
    let rest := tokens.drop 1
    if atWord "crate" rest then externCrate
    else if atGroup .brace rest then foreignItem hasVisibility
    else if atString rest then
      if second (atGroup .brace) rest then foreignItem hasVisibility
      else word "extern" ++ literal ++ noneOf [.group .brace]
    else word "extern" ++ noneOf [.word "crate", .group .brace, .string]

end DaoGen.Code.Language
