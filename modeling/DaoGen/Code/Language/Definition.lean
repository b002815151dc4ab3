import DaoGen.Code.Language.Function

/-!
# Definitions

Constants, types, structs, enums and unions. One that later stages of the language refuse is
kept as it was written.
-/
namespace DaoGen.Code.Language

/-! ## Constants and types -/

/-- Whether generic parameters or conditions on them were written. -/
def hasGenerics (trees : Trees) : Bool :=
  trees.any (isNode .generics) || trees.any (isNode .whereClause)

/-- A constant after its keyword. -/
def constantRest : P :=
  anyName ++ generics ++ op ":" ++ call (.type true) ++ value anyExpression ++ whereClause ++
    op ";"

def atConstantName : Look := fun tokens => atName tokens || atWord "_" tokens

/-- A constant, perhaps without a name. -/
def constant : P :=
  keptIf (fun trees => hasGenerics trees || !trees.any (isNode .value))
    (word "const" ++
      .either atConstantName constantRest (noneOf [.name, .word "_"]))

/-- Bounds of an associated type. -/
def associatedBounds : P :=
  colonBounds (chainUpTo "+"
    (fun tokens => atWord "where" tokens || atOp "=" tokens || atOp ";" tokens) declaredBound)

/-- A type with conditions before its definition, after it, or in one of these places. -/
def typeDefinition (whereBefore whereAfter : Bool) : P :=
  let conditions (applies : Bool) := if applies then whereClause else .empty
  word "type" ++ name ++ generics ++ associatedBounds ++
    .bind (conditions whereBefore) fun before =>
      value (call (.type true)) ++ conditions (whereAfter && before.isEmpty) ++ op ";"

def hasBounds (trees : Trees) : Bool := trees.any (isNode .bounds)

def hasValue (trees : Trees) : Bool := trees.any (isNode .value)

/-- A static value; one without a type or a value is kept as written. -/
def static : P :=
  keptIf (fun trees => !(trees.any (isNode .type) && hasValue trees))
    (word "static" ++ optWord "mut" ++ name ++
      .either (atOp "=") (value anyExpression)
        (op ":" ++ call (.type true) ++
          .either (atOp ";") .empty (.labelled .value (op "=" ++ anyExpression))) ++
      op ";")

/-! ## Fields -/

/-- Whether a struct or union without a name stands in place of the type of a field. -/
def atInnerStruct : Look := fun tokens =>
  atWord "struct" tokens || atWord "union" tokens && second (atGroup .brace) tokens

/-- A field. One without a name may have fields of its own in place of its type. -/
def field : P :=
  .labelled .field
    (attributes ++ visibility ++
      .either (atWord "_")
        (.labelled .declaredName anyName ++ op ":" ++
          .either atInnerStruct
            (.labelled .type (.labelled .otherType
              (.asWritten (anyName ++ call .namedFields) fun _ => true)))
            (call (.type true)))
        (.labelled .declaredName name ++ op ":" ++ call (.type true)))

def namedFields : P := .labelled .namedFields (braces (commaSeparated field))

def tupleFields : P :=
  .labelled .tupleFields
    (parens (commaSeparated
      (.labelled .tupleField (attributes ++ visibility ++ call (.type true)))))

/-! ## Structs, enums and unions -/

/-- A struct after its generic parameters. -/
def structRest : P :=
  let semicolon := op ";"
  .bind whereClause fun conditions =>
    if conditions.isEmpty then
      oneOf
        [(.word "where", .empty),
          (.group .paren, tupleFields ++
            .bind whereClause fun conditions =>
              if conditions.isEmpty then oneOf [(.word "where", .empty), (.op ";", semicolon)]
              else oneOf [(.op ";", semicolon)]),
          (.group .brace, namedFields),
          (.op ";", semicolon)]
    else oneOf [(.group .brace, namedFields), (.op ";", semicolon)]

def structItem : P :=
  .labelled .structItem (word "struct" ++ .labelled .declaredName name ++ generics ++ structRest)

/-- A variant of an enum; its visibility is not written. -/
def variant : P :=
  attributes ++ .edited visibility (fun _ => []) ++ name ++
    select [(atGroup .brace, namedFields), (atGroup .paren, tupleFields)] .empty ++
    value anyExpression

def enumItem : P :=
  .labelled .otherItem
    (word "enum" ++ name ++ generics ++ whereClause ++ braces (commaSeparated variant))

def unionItem : P :=
  .labelled .otherItem (word "union" ++ name ++ generics ++ whereClause ++ namedFields)

end DaoGen.Code.Language
