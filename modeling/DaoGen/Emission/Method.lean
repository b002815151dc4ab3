import DaoGen.Code.Expr
import DaoGen.Emission.Name

/-!
# Methods

The header of a generated method repeats that of the declared one. Every emitter takes it from
here, so that all implementations of an operation have the same.
-/
namespace DaoGen.Emission

open Code

/-- A parameter with its type. -/
structure Binding where
  name : String
  ty : List Token
  deriving Repr

def Binding.tokens (b : Binding) : List Token := typed b.name b.ty

/-- A method without its body. -/
structure MethodHeader where
  attributes : List (List Token)
  isAsync : Bool
  name : String
  params : List Binding
  continuation : Option Binding
  result : Option (List Token)
  deriving Repr

namespace MethodHeader

/-- The parameters of the caller and the one that receives the result. -/
def bindings (h : MethodHeader) : List Binding := h.params ++ h.continuation.toList

/-- The arguments of a call with the parameters as they are. -/
def forwarded (h : MethodHeader) : List Expr := h.bindings.map fun b => .var b.name

def tokens (h : MethodHeader) : List Token :=
  h.attributes.flatten ++ (if h.isAsync then words ["async"] else []) ++ words ["fn", h.name] ++
    paren (commas (reference (words ["self"]) :: h.bindings.map Binding.tokens)) ++
    h.result.elim [] arrow

/-- A parameter as declared. -/
def bindingOf (param : LogicalParam) (name : String) : Except EmitCause Binding := do
  return { name, ty := ← typeTokens param.ty }

/-- The parameters as declared. All names are checked before the types. -/
def paramsOf (params : List LogicalParam) : Except EmitCause (List Binding) := do
  let names ← params.mapM fun p => identifier p.name
  (params.zip names).mapM fun (p, name) => bindingOf p name

/-- The parameter that receives the result. -/
def continuationOf (ctx : Context) : Suspension → Except EmitCause (Option Binding)
  | .blocking | .async => .ok none
  | .continuation param ty => do
    let name ← identifier param
    match ty.firstArg? with
    | none => .error (.invalidType param)
    | some carried =>
      let carried ← typeTokens carried
      return some { name, ty := ctx.runtimePath ["Continuation"] ++ angled carried }

/-- The declared return type. -/
def resultOf (declared : Option TypeRef) : Except EmitCause (Option (List Token)) :=
  match declared with
  | none => .ok none
  | some ty => do return some (← typeTokens ty)

/-- The header of the method of an operation. -/
def ofOperation (ctx : Context) (op : Operation) : Except EmitCause MethodHeader := do
  let name ← identifier op.name
  let attributes ← op.annotations |> Annotation.passthroughs |>.mapM attributeTokens
  let params ← paramsOf op.params
  let continuation ← continuationOf ctx op.suspension
  let result ← resultOf op.declaredReturn
  return { attributes, isAsync := op.suspension == .async, name, params, continuation, result }

end MethodHeader

/-- A generated method. -/
structure Method where
  header : MethodHeader
  body : Body
  deriving Repr

def Method.tokens (m : Method) : List Token := m.header.tokens ++ brace m.body.tokens

end DaoGen.Emission
