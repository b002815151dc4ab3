import DaoGen.Text.Fragment

/-!
# Types in declarations

`TypeRef` describes a declared type by its path, its arguments and two marks: whether a value may
be absent, and whether the type is a shared reference. Slices have the name `[]` and one argument,
the unit type is `()`, and a type that has no such description is its own text as a name.
-/
namespace DaoGen

/-- How a type argument restricts the use of its type. -/
inductive Projection where
  | invariant
  | covariant
  | contravariant
  deriving DecidableEq, Repr

/-- An argument of a type: a type with its projection, or an unknown one. -/
inductive TypeArg (T : Type) where
  | type (projection : Projection) (ty : T)
  | star
  deriving DecidableEq, Repr

/-- The type of an argument, if it is known. -/
def TypeArg.ty? {T : Type} : TypeArg T → Option T
  | .type _ ty => some ty
  | .star => none

/-- A declared type. -/
structure TypeRef where
  name : String
  args : List (TypeArg TypeRef) := []
  nullable : Bool := false
  reference : Bool := false
  deriving Repr, Inhabited

namespace TypeRef

mutual

/-- Equality of types is decidable. -/
def decEq : (a b : TypeRef) → Decidable (a = b)
  | ⟨n, as, x, y⟩, ⟨m, bs, u, v⟩ =>
    match decEqArgs as bs with
    | isTrue h => decidable_of_iff (n = m ∧ x = u ∧ y = v) (by simp [h])
    | isFalse h => isFalse (by simp [h])

def decEqArgs : (as bs : List (TypeArg TypeRef)) → Decidable (as = bs)
  | [], [] => isTrue rfl
  | a :: as, b :: bs =>
    match decEqArg a b, decEqArgs as bs with
    | isTrue h, isTrue h' => isTrue (by rw [h, h'])
    | isFalse h, _ => isFalse (by simp [h])
    | _, isFalse h => isFalse (by simp [h])
  | [], _ :: _ => isFalse (by simp)
  | _ :: _, [] => isFalse (by simp)

def decEqArg : (a b : TypeArg TypeRef) → Decidable (a = b)
  | .star, .star => isTrue rfl
  | .type p a, .type q b =>
    match decEq a b with
    | isTrue h => decidable_of_iff (p = q) (by simp [h])
    | isFalse h => isFalse (by simp [h])
  | .star, .type _ _ => isFalse (by simp)
  | .type _ _, .star => isFalse (by simp)

end

instance : DecidableEq TypeRef := decEq

/-- A type without arguments. -/
def named (name : String) : TypeRef := { name }

/-- The unit type. -/
def unit : TypeRef := named "()"

/-- A type with plain arguments. -/
def generic (name : String) (args : List TypeRef) : TypeRef :=
  { name, args := args.map (.type .invariant) }

/-- A slice of the given elements. -/
def slice (element : TypeRef) : TypeRef := generic "[]" [element]

/-- The same type behind a shared reference. -/
def byRef (t : TypeRef) : TypeRef := { t with reference := true }

/-- The same type without its outer reference. -/
def owned (t : TypeRef) : TypeRef := { t with reference := false }

/-- The last name of the path. -/
def simpleName (t : TypeRef) : String := Text.lastSegment t.name

def isUnit (t : TypeRef) : Bool := t.name == "()" && !t.nullable

def isSlice (t : TypeRef) : Bool := t.name == "[]"

/-- The type of the first argument. -/
def firstArg? (t : TypeRef) : Option TypeRef := t.args.head?.bind TypeArg.ty?

/-- The type of the elements of a list or slice. -/
def element? (t : TypeRef) : Option TypeRef :=
  if (t.isSlice || t.simpleName == "Vec") && t.args.length == 1 then t.firstArg? else none

/-- Integer types by name. -/
def integerNames : List String :=
  ["i8", "i16", "i32", "i64", "i128", "isize", "u8", "u16", "u32", "u64", "u128", "usize"]

/-- Whether values are integers, always present and owned. -/
def isInteger (t : TypeRef) : Bool :=
  !t.nullable && !t.reference && t.args.isEmpty && integerNames.contains t.name

/-- Whether a parameter of this type receives the result of an operation. -/
def isContinuation (t : TypeRef) : Bool :=
  t.simpleName == "Continuation" &&
    match t.args with
    | [.type _ _] => true
    | _ => false

mutual

/-- The text of a type in source code. -/
def render : TypeRef → String
  | ⟨name, args, nullable, reference⟩ =>
    let inside := ", ".intercalate (renderArgs args)
    let base :=
      if name = "[]" then "[" ++ inside ++ "]"
      else if args.isEmpty then name
      else name ++ "<" ++ inside ++ ">"
    let base := if reference then "&" ++ base else base
    if nullable then "Option<" ++ base ++ ">" else base

def renderArgs : List (TypeArg TypeRef) → List String
  | [] => []
  | arg :: rest => renderArg arg :: renderArgs rest

def renderArg : TypeArg TypeRef → String
  | .type _ ty => render ty
  | .star => "_"

end

theorem renderArgs_eq_map (args : List (TypeArg TypeRef)) :
    renderArgs args = args.map renderArg := by
  induction args with
  | nil => rfl
  | cons arg rest ih => simp [renderArgs, ih]

end TypeRef

end DaoGen
