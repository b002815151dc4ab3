import DaoGen.Code.Language.Bound

/-!
# Types

A type begins with a token that says of what shape it is. Only where `plus` is set can it be a sum
of bounds that no keyword introduces.
-/
namespace DaoGen.Code.Language

/-! ## Function pointers -/

/-- The convention by which a function is called. -/
def convention : P := .given (atWord "extern") (word "extern" ++ .given atString literal)

/-- The parameter that stands for any number of further ones. -/
def atFurtherParameters : Look := fun tokens =>
  atOp "..." tokens ||
    (atName tokens || atWord "_" tokens) && second (atOp ":") tokens &&
      third (atOp "...") tokens

def furtherParameters : P :=
  .given (fun tokens => atName tokens || atWord "_" tokens) (anyName ++ op ":") ++ op "..." ++
    optOp ","

def atMutSelf : Look := fun tokens => atWord "mut" tokens && second (atWord "self") tokens

/-- A parameter of a function pointer. Its receiver may be writable if it comes first; it is then
kept as written. -/
def pointerParameter (isFirst : Bool) : P :=
  .asWritten
    (.choose fun start =>
      let isMutable := isFirst && atMutSelf start
      .given (fun _ => isMutable) (word "mut") ++
        .choose fun tokens =>
          let isReceiver := isFirst && atWord "self" tokens
          let isNamed :=
            (atName tokens || atWord "_" tokens || isReceiver) && second atColon tokens
          .given (fun _ => isNamed) (anyName ++ op ":") ++
            select
              [(fun tokens => isFirst && !(isNamed && isReceiver) && atMutSelf tokens,
                  word "mut" ++ word "self"),
                (fun _ => isMutable && !isNamed, word "self")]
              (call (.type true)))
    fun trees => trees.any (isWord "mut")

/-- The parameters of a function pointer from a given one on. -/
def pointerParameters (isFirst : Bool) : P :=
  unlessEnd
    (attributes ++
      .either atFurtherParameters furtherParameters
        (pointerParameter isFirst ++
          unlessEnd (op "," ++ call (.pointerParameters false))))

def functionPointer : P :=
  .labelled .otherType
    (optWord "unsafe" ++ convention ++ word "fn" ++ parens (call (.pointerParameters true)) ++
      .given (atOp "->") (op "->" ++ call (.type false)))

/-! ## Sums of bounds -/

/-- Further bounds after plus signs, each of which needs one. -/
def plusBounds : P := .repeated (atOp "+") (op "+" ++ bound false false)

/-- One bound, or a sum of bounds that a plus sign may end. -/
def boundSum (plus capturesAllowed constAllowed : Bool) : P :=
  let item := bound capturesAllowed constAllowed
  if plus then chained "+" (fun tokens => !startsBound constAllowed tokens) item else item

/-- Refuses bounds none of which is a trait. -/
def withTrait (bounds : P) (reason : String) : P :=
  .bind bounds fun trees =>
    if trees.any (isNode .bound) then .empty else refuse reason

def objectBounds (plus : Bool) : P :=
  withTrait (boundSum plus false false) "at least one trait is required for an object type"

/-- An object type that begins with a lifetime. -/
def lifetimeObject : P := .labelled .otherType (objectBounds true)

def objectType (plus : Bool) : P :=
  .labelled .otherType
    (.asWritten (word "dyn" ++ optOp "*" ++ objectBounds plus) fun trees =>
      trees.any (isMark '*'))

def hiddenType (plus : Bool) : P :=
  .labelled .otherType
    (word "impl" ++ withTrait (boundSum plus true true) "at least one trait must be specified")

/-! ## Round brackets -/

/-- Whether a type between round brackets can be the first bound of a sum. -/
def isSoleBound : ParseTree Part → Bool
  | .node .type [.node .pathType _] => true
  | .node .type [.node .boundType _] => true
  | _ => false

/-- A type without round brackets of its own, if it is a bound. -/
def withoutBrackets : ParseTree Part → Trees
  | .node .type [.node .boundType [.group .paren inside]] => inside
  | tree => [tree]

/-- The shape of what begins with round brackets: a sum of bounds, a single one, no value at all,
a type in brackets, or several types. -/
def labelParens : Trees → Trees
  | [.group .paren []] => [.node .unitType [.group .paren []]]
  | [.group .paren [.node .bound children]] =>
    [.node .boundType [.group .paren [.node .bound children]]]
  | [.group .paren [.node .type children]] =>
    [.node .parenType [.group .paren [.node .type children]]]
  | .group .paren [tree] :: rest =>
    [.node .otherType (.group .paren (withoutBrackets tree) :: rest)]
  | trees => [.node .otherType trees]

def parenType (plus : Bool) : P :=
  .edited
    (.bind
      (parens (select
        [(atEnd, .empty), (atLifetime, .labelled .type lifetimeObject),
          (atOp "?", .labelled .bound (traitBound false))]
        (call (.type true) ++ .given (atOp ",") (op "," ++ commaSeparated (call (.type true))))))
      fun trees =>
        match trees with
        | [.group .paren [.node .bound _]] => plusBounds
        | [.group .paren [tree]] => if plus && isSoleBound tree then plusBounds else .empty
        | _ => .empty)
    labelParens

/-! ## Paths -/

/-- The path of a macro. Binders before it are dropped, and it is marked as bound by them. -/
def macroPath (isBound : Bool) (path : ParseTree Part) : ParseTree Part :=
  if isBound then .node .boundType [path] else path

/-- The shape of what begins with a path, perhaps after binders: the call of a macro, an object
type of one bound or more, or a path on its own. -/
def labelPath (trees : Trees) : Trees :=
  let isBound := trees.head?.any (isWord "for")
  match trees.dropWhile fun tree => !isNode .path tree && !isNode .qualifiedPath tree with
  | [.node .path children] =>
    if isBound then [.node .boundType trees] else [.node .pathType [.node .path children]]
  | path :: .leaf (.punct '!' joint) :: rest =>
    [.node .macroType (macroPath isBound path :: .leaf (.punct '!' joint) :: rest)]
  | _ => [.node .otherType trees]

/-- What follows a path: the input of a macro or, where they are allowed, further bounds. -/
def afterPath (plus : Bool) (path : Trees) : P :=
  match path with
  | [.node .qualifiedPath _] => .empty
  | _ =>
    select
      [(atMacroCall path, macroCall),
        (fun tokens => plus && atOp "+" tokens,
          .repeated (fun tokens => atOp "+" tokens && startsBound false (tokens.drop 1))
            (op "+" ++ bound false false) ++ optOp "+")]
      .empty

def pathType (plus : Bool) : P := .bind (anyKindOfPath false) (afterPath plus)

/-- Whether a path that a type can begin with is ahead. -/
def startsPathType : Look := fun tokens =>
  atPathName tokens || atOp "::" tokens || atOp "<" tokens

def atPointer : Look := atAnyWord ["fn", "unsafe", "extern"]

/-- A type after binders: a function pointer or an object type. -/
def boundByFor (plus : Bool) : P :=
  call .binders ++
    select [(atPointer, functionPointer), (atPathName, pathType plus)]
      (noneOf [.name, .word "fn", .word "unsafe", .word "extern", .word "super", .word "self",
        .word "Self", .word "crate"])

/-! ## Any type -/

/-- A reference or a pointer; neither takes a sum of bounds. -/
def referenceType : P :=
  .labelled .referenceType (op "&" ++ optLifetime ++ optWord "mut" ++ call (.type false))

def pointerType : P :=
  .labelled .otherType
    (op "*" ++ oneOf [(.word "const", word "const"), (.word "mut", word "mut")] ++
      call (.type false))

/-- A slice, or an array with its length. -/
def sliceType : P :=
  .labelled .sliceType
    (brackets (call (.type true) ++ .given (atOp ";") (op ";" ++ call (.expression true))))

/-- The label of a type after binders. -/
def labelBoundByFor (trees : Trees) : Trees :=
  if trees.any (isNode .otherType) then [.node .otherType trees] else labelPath trees

def type (plus : Bool) : P :=
  .labelled .type
    (select
      [(atWord "for", .edited (boundByFor plus) labelBoundByFor),
        (atGroup .paren, parenType plus),
        (atPointer, functionPointer),
        (startsPathType, .edited (pathType plus) labelPath),
        (atWord "dyn", objectType plus),
        (atGroup .bracket, sliceType),
        (atOp "*", pointerType),
        (atOp "&", referenceType),
        (atOp "!", .labelled .otherType (op "!")),
        (atWord "impl", hiddenType plus),
        (atWord "_", .labelled .inferType (word "_")),
        (atLifetime, lifetimeObject)]
      (noneOf
        [.word "for", .group .paren, .word "fn", .word "unsafe", .word "extern", .name,
          .op "::", .op "<", .word "dyn", .group .bracket, .op "*", .op "&", .op "!",
          .word "impl", .word "_", .lifetime]))

end DaoGen.Code.Language
