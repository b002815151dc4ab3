import DaoGen.Code.Language.Trait

/-!
# Items

What is used from elsewhere, modules, and the choice of an item by the tokens ahead. An item that
later stages of the language refuse is kept as it was written.
-/
namespace DaoGen.Code.Language

/-! ## Use -/

/-- What is used. At the root of it and of its groups, a path may be absolute; such a group is
kept as written. -/
def useTree (root : Bool) : P :=
  let named := anyName ++
    select
      [(atOp "::", op "::" ++ call (.useTree false)),
        (atWord "as", rename (missing ["identifier or underscore"]))]
      .empty
  let inner : P := .choose fun tokens =>
    if root && atOp "::" tokens then
      .labelled .keptItem (op "::") ++ call (.useTree false)
    else call (.useTree root)
  oneOf
    [(.name, named), (.word "self", named), (.word "super", named), (.word "crate", named),
      (.word "try", named), (.op "*", op "*"), (.group .brace, braces (commaSeparated inner))]

mutual

/-- Whether a group of what is used has an absolute path in it. -/
def hasAbsolutePath : ParseTree Part → Bool
  | .leaf _ => false
  | .group _ children => anyAbsolutePath children
  | .node label _ => label == .keptItem

/-- Whether one of several groups has an absolute path in it. -/
def anyAbsolutePath : List (ParseTree Part) → Bool
  | [] => false
  | tree :: rest => hasAbsolutePath tree || anyAbsolutePath rest

end

def useItem : P :=
  keptIf anyAbsolutePath
    (word "use" ++
      .either (atOp "::") (op "::" ++ call (.useTree false)) (call (.useTree true)) ++ op ";")

/-! ## Items -/

def moduleItem : P :=
  .labelled .moduleItem
    (optWord "unsafe" ++ word "mod" ++
      .labelled .declaredName (.either (atWord "try") anyName name) ++
      oneOf [(.op ";", op ";"), (.group .brace, members (call .item))])

def typeItem : P :=
  keptIf (fun trees => hasBounds trees || !hasValue trees) (typeDefinition true false)

/-- A macro by the definition of its own keyword, which is kept as written. -/
def macroDefinition : P :=
  .labelled .keptItem
    (word "macro" ++ name ++
      .either (atGroup .paren)
        (rawGroup ++ .either (atGroup .brace) rawGroup (noneOf [.group .brace]))
        (.either (atGroup .brace) rawGroup (noneOf [.group .paren, .group .brace])))

/-- What can be unsafe and is no function. -/
def unsafeItem (hasVisibility : Bool) : P :=
  .choose fun tokens =>
    let rest := tokens.drop 1
    if atWord "trait" rest || atWord "auto" rest && second (atWord "trait") rest then markedTrait
    else if atWord "impl" rest then implItem hasVisibility
    else if atWord "extern" rest then foreignItem hasVisibility
    else if atWord "mod" rest then moduleItem
    else
      word "unsafe" ++
        noneOf [.word "trait", .word "auto", .word "impl", .word "extern", .word "mod"]

/-- An item after its attributes and visibility. -/
def itemRest (hasVisibility : Bool) : P :=
  let macros := if hasVisibility then [] else macroChoices
  select
    [(atFunction false, function),
      (atWord "extern", externItem hasVisibility),
      (atWord "use", useItem),
      (atWord "static", static),
      (atWord "const", constant),
      (atWord "unsafe", unsafeItem hasVisibility),
      (atWord "mod", moduleItem),
      (atWord "type", typeItem),
      (atWord "struct", structItem),
      (atWord "enum", enumItem),
      (fun tokens => atWord "union" tokens && second atName tokens, unionItem),
      (atWord "trait", traitItem),
      (fun tokens => atWord "auto" tokens && second (atWord "trait") tokens, markedTrait),
      (fun tokens =>
        atWord "impl" tokens || atWord "default" tokens && !second (atOp "!") tokens,
        implItem hasVisibility),
      (atWord "macro", macroDefinition),
      (fun tokens => macros.any fun choice => choice.ahead tokens, itemMacro)]
    (noneOf
      (["fn", "extern", "use", "static", "const", "unsafe", "mod", "type", "struct", "enum",
          "union", "trait", "auto", "impl", "default", "macro"].map Choice.word ++ macros))

def item : P :=
  .labelled .item
    (.asWritten
      (attributes ++ .bind visibility fun visibility => itemRest !visibility.isEmpty)
      fun trees => trees.any (isNode .keptItem))

/-- A source file. -/
def file : P := innerAttributes ++ .repeated (fun tokens => !atEnd tokens) (call .item)

end DaoGen.Code.Language
