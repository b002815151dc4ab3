import DaoGen.Code.Expr
import DaoGen.TypeRef
import DaoGen.TypeRef.Alias

/-!
# Conversions of results

Bodies compute values of normal forms, and operations declare other types for the same values. A
`Conversion` says how a value of the one becomes a value of the other, and `Conversion.apply` is
the expression that does so.
-/
namespace DaoGen

open Code

/-- Types that hold another one and can be taken off again. -/
inductive Carrier where
  | box
  | rc
  | arc
  deriving DecidableEq, Repr

def Carrier.ofName? (name : String) : Option Carrier :=
  match name with
  | "Box" => some .box
  | "Rc" => some .rc
  | "Arc" => some .arc
  | _ => none

def Carrier.path : Carrier → List Token
  | .box => absolutePath ["std", "boxed", "Box"]
  | .rc => absolutePath ["std", "rc", "Rc"]
  | .arc => absolutePath ["std", "sync", "Arc"]

/-- Which way a result is converted. -/
inductive Direction where
  | toDeclared
  | toCanonical
  deriving DecidableEq, Repr

/-- A way from a value of one type to a value of another. -/
inductive Conversion where
  /-- the value as it is -/
  | same
  /-- the converted value, put into a carrier -/
  | wrap (carrier : Carrier) (inner : Conversion)
  /-- the value taken out of a carrier, and converted -/
  | unwrap (carrier : Carrier) (inner : Conversion)
  | mapOption (inner : Conversion)
  | mapList (inner : Conversion)
  /-- from or to a type of its own with the same values -/
  | into
  deriving DecidableEq, Repr

namespace Conversion

/-- Whether anything is to be done. -/
def isSame : Conversion → Bool
  | .same => true
  | _ => false

/-- The content of a carrier. -/
def unwrapped (carrier : Carrier) (value : Expr) : Expr :=
  match carrier with
  | .box => .deref value
  | .rc | .arc => .call (member carrier.path "unwrap_or_clone") [value]

/-- The converted value. -/
def apply : Conversion → Expr → Expr
  | .same, value => value
  | .wrap carrier inner, value => .call (member carrier.path "new") [inner.apply value]
  | .unwrap carrier inner, value => inner.apply (unwrapped carrier value)
  | .mapOption inner, value => .mapped value "v" (inner.apply (.var "v"))
  | .mapList inner, value =>
    .collected (.mapped (.invoke value "into_iter" []) "v" (inner.apply (.var "v")))
  | .into, value => .call (absolutePath ["core", "convert", "Into", "into"]) [value]

/-- A conversion of the items of something that is kept as it is if the items are. -/
def mapUnlessSame (map : Conversion → Conversion) (inner : Conversion) : Conversion :=
  if inner.isSame then .same else map inner

/-- Into or out of a carrier. -/
def carried (direction : Direction) (carrier : Carrier) (inner : Conversion) : Conversion :=
  match direction with
  | .toDeclared => .wrap carrier inner
  | .toCanonical => .unwrap carrier inner

/-- The conversion for a type without a rule of its own: none, if its arguments need none. -/
def ofOther (declared : TypeRef) (args : List (Except TypeRef Conversion)) :
    Except TypeRef Conversion :=
  match args with
  | [] => .ok .same
  | arg :: rest => do
    if (← arg).isSame then ofOther declared rest else .error declared

/-- The conversion for a type by its common name, from those for its known arguments. -/
def ofParts (direction : Direction) (declared : TypeRef) (args : List (Except TypeRef Conversion)) :
    Except TypeRef Conversion :=
  let name := canonicalName declared.name
  match declared.args.length, args with
  | 1, [inner] =>
    match Carrier.ofName? name with
    | some carrier => inner.map (carried direction carrier)
    | none =>
      if name = "Option" then inner.map (mapUnlessSame .mapOption)
      else if name = "Vec" then inner.map (mapUnlessSame .mapList)
      else if (alias? declared.name).any (·.nominal) then .ok .into
      else ofOther declared args
  | _, _ =>
    if (alias? declared.name).any (·.nominal) then .ok .into else ofOther declared args

mutual

/-- The conversion for a declared type, or the part of it that has none: references, and types
with arguments that would have to be converted inside them. -/
def ofType (direction : Direction) : TypeRef → Except TypeRef Conversion
  | ⟨name, args, nullable, reference⟩ =>
    let declared : TypeRef := ⟨name, args, nullable, reference⟩
    if reference then .error declared
    else ofParts direction declared (ofArgs direction args)

/-- The conversions for the known arguments of a type. -/
def ofArgs (direction : Direction) : List (TypeArg TypeRef) → List (Except TypeRef Conversion)
  | [] => []
  | arg :: rest => ofArg direction arg ++ ofArgs direction rest

/-- The conversion for an argument, if it is known. -/
def ofArg (direction : Direction) : TypeArg TypeRef → List (Except TypeRef Conversion)
  | .type _ ty => [ofType direction ty]
  | .star => []

end

end Conversion

end DaoGen
