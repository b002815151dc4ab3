import DaoGen.Code.Phrase

/-!
# Generated expressions

Expressions and statements of generated function bodies, and how they are written as tokens. Local
names stand in `var`, in patterns and in the parameters of closures, so that what a name refers to
can be read off.
-/
namespace DaoGen.Code

/-- What a statement binds. -/
inductive LocalPattern where
  | name (name : String)
  | mutable (name : String)
  | tuple (names : List String)
  /-- the fields of a record of the given type, each under its own name -/
  | fields (type : String) (names : List String)
  deriving DecidableEq, Repr

/-- The names that a pattern binds. -/
def LocalPattern.names : LocalPattern → List String
  | .name x | .mutable x => [x]
  | .tuple xs | .fields _ xs => xs

def LocalPattern.tokens : LocalPattern → List Token
  | .name x => words [x]
  | .mutable x => words ["mut", x]
  | .tuple xs => paren (commas (xs.map (words [·])))
  | .fields type xs => words [type] ++ brace (commas (xs.map (words [·])))

mutual

/-- An expression of generated code. Types and paths are kept as tokens. -/
inductive Expr where
  | var (name : String)
  | path (path : List Token)
  | number (n : Nat)
  | text (s : String)
  | borrow (e : Expr)
  /-- what a pointer points to, in round brackets -/
  | deref (e : Expr)
  | paren (e : Expr)
  | field (e : Expr) (name : String)
  | call (function : List Token) (args : List Expr)
  /-- a method call, with the tokens of type arguments after the name -/
  | method (receiver : Expr) (name : String) (types : List Token) (args : List Expr)
  | await (e : Expr)
  | cast (e : Expr) (ty : List Token)
  | array (items : List Expr)
  | macroCall (macroPath : List Token) (delimiter : Delimiter) (args : List Expr)
  | closure (moves : Bool) (params : List String) (body : Expr)
  | block (isAsync : Bool) (stmts : List Stmt) (result : Option Expr)
  deriving Repr

/-- A statement of generated code. A binding may state its type. -/
inductive Stmt where
  | bind (pattern : LocalPattern) (ty : Option (List Token)) (value : Expr)
  | run (e : Expr)
  | each (name : String) (items : Expr) (body : List Stmt)
  | increase (name : String) (amount : Expr)
  deriving Repr

end

instance : Inhabited Expr := ⟨.number 0⟩

/-- The bars around the parameters of a closure. -/
def bars (params : List String) : List Token :=
  if params.isEmpty then op "||" else op "|" ++ commas (params.map (words [·])) ++ op "|"

mutual

/-- An expression as tokens. -/
def Expr.tokens : Expr → List Token
  | .var name => words [name]
  | .path path => path
  | .number n => numberToken n
  | .text s => stringToken s
  | .borrow e => op "&" ++ e.tokens
  | .deref e => Code.paren (op "*" ++ e.tokens)
  | .paren e => Code.paren e.tokens
  | .field e name => e.tokens ++ op "." ++ words [name]
  | .call function args => function ++ Code.paren (commas (Expr.tokensList args))
  | .method receiver name types args =>
    receiver.tokens ++ op "." ++ words [name] ++ types ++
      Code.paren (commas (Expr.tokensList args))
  | .await e => e.tokens ++ op "." ++ words ["await"]
  | .cast e ty => e.tokens ++ words ["as"] ++ ty
  | .array items => bracket (commas (Expr.tokensList items))
  | .macroCall macroPath delimiter args =>
    macroPath ++ op "!" ++ [.group delimiter (commas (Expr.tokensList args))]
  | .closure moves params body =>
    (if moves then words ["move"] else []) ++ bars params ++ body.tokens
  | .block isAsync stmts result =>
    (if isAsync then words ["async"] else []) ++
      brace (Stmt.tokensList stmts ++
        match result with
        | some e => e.tokens
        | none => [])

/-- The tokens of each of several expressions. -/
def Expr.tokensList : List Expr → List (List Token)
  | [] => []
  | e :: rest => e.tokens :: Expr.tokensList rest

/-- A statement as tokens. -/
def Stmt.tokens : Stmt → List Token
  | .bind pattern ty value =>
    words ["let"] ++ pattern.tokens ++ ty.elim [] (op ":" ++ ·) ++ op "=" ++ value.tokens ++
      op ";"
  | .run e => e.tokens ++ op ";"
  | .each name items body =>
    words ["for", name, "in"] ++ items.tokens ++ brace (Stmt.tokensList body)
  | .increase name amount => words [name] ++ op "+=" ++ amount.tokens ++ op ";"

/-- Statements in a row as tokens. -/
def Stmt.tokensList : List Stmt → List Token
  | [] => []
  | s :: rest => s.tokens ++ Stmt.tokensList rest

end

/-- The statements of a function body and its value, if it has one. -/
structure Body where
  stmts : List Stmt := []
  result : Option Expr := none
  deriving Repr

namespace Body

/-- A body as a block expression. -/
def block (body : Body) : Expr := .block false body.stmts body.result

/-- A body as a block that is run later. -/
def asyncBlock (body : Body) : Expr := .block true body.stmts body.result

def tokens (body : Body) : List Token :=
  Stmt.tokensList body.stmts ++ (body.result.map Expr.tokens).getD []

end Body

/-- A statement that binds a name. -/
def Stmt.bound (name : String) (value : Expr) : Stmt := .bind (.name name) none value

namespace Expr

def self : Expr := .var "self"

/-- A method call without type arguments. -/
def invoke (receiver : Expr) (name : String) (args : List Expr) : Expr :=
  .method receiver name [] args

/-- The type arguments of a call. -/
def turbofish (ty : List Token) : List Token := op "::" ++ angled ty

/-- The type arguments of a call that collects items into a list. -/
def listTurbofish : List Token :=
  op "::" ++ op "<" ++ absolutePath ["std", "vec", "Vec"] ++ op "<" ++ words ["_"] ++ op ">>"

/-- Applies a function of one variable to each item. -/
def mapped (receiver : Expr) (name : String) (body : Expr) : Expr :=
  invoke receiver "map" [.closure false [name] body]

/-- The items of an iterator as a list. -/
def collected (items : Expr) : Expr := .method items "collect" listTurbofish []

end Expr

end DaoGen.Code
