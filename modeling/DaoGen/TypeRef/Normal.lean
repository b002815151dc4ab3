import DaoGen.TypeRef
import DaoGen.TypeRef.Alias

/-!
# Normal forms of types

One value can be declared in many ways. The normal form of a type has common names, plain
arguments instead of covariant ones, no boxes, and a mark for a value that may be absent instead
of the type that says so.
-/
namespace DaoGen.TypeRef

/-- Types that only hold another type. -/
def isBox (name : String) : Bool := ["Box", "Rc", "Arc"].contains name

/-- A type built from a common name and arguments in normal form. A box of one plain argument is
that argument, and an optional one is that argument marked as nullable; the marks of the outer
type are kept. -/
def rebuild (name : String) (args : List (TypeArg TypeRef)) (nullable reference : Bool) : TypeRef :=
  match args with
  | [.type .invariant inner] =>
    if isBox name then
      { inner with
        reference := inner.reference || reference
        nullable := inner.nullable || nullable }
    else if name = "Option" then
      { inner with reference := inner.reference || reference, nullable := true }
    else { name, args, nullable, reference }
  | _ => { name, args, nullable, reference }

mutual

/-- The normal form of a type. -/
def normalize : TypeRef → TypeRef
  | ⟨name, args, nullable, reference⟩ =>
    rebuild (canonicalName name) (normalizeArgs args) nullable reference

def normalizeArgs : List (TypeArg TypeRef) → List (TypeArg TypeRef)
  | [] => []
  | arg :: rest => normalizeArg arg :: normalizeArgs rest

def normalizeArg : TypeArg TypeRef → TypeArg TypeRef
  | .type .contravariant ty => .type .contravariant (normalize ty)
  | .type _ ty => .type .invariant (normalize ty)
  | .star => .star

end

theorem normalizeArgs_eq_map (args : List (TypeArg TypeRef)) :
    normalizeArgs args = args.map normalizeArg := by
  induction args with
  | nil => rfl
  | cons arg rest ih => simp [normalizeArgs, ih]

end DaoGen.TypeRef
