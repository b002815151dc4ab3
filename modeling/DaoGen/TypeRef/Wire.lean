import DaoGen.TypeRef

/-!
# Types on the wire

A request carries values of its own: references are dropped, slices become lists and text slices
become texts. Projections of arguments are dropped too.
-/
namespace DaoGen.TypeRef

mutual

/-- The type of a value that is sent for a parameter of the given type. -/
def wire : TypeRef → TypeRef
  | ⟨name, args, nullable, _⟩ =>
    if name = "[]" then { name := "Vec", args := wireArgs args, nullable }
    else if name = "str" then { name := "String", nullable }
    else { name, args := wireArgs args, nullable }

def wireArgs : List (TypeArg TypeRef) → List (TypeArg TypeRef)
  | [] => []
  | arg :: rest => wireArg arg :: wireArgs rest

def wireArg : TypeArg TypeRef → TypeArg TypeRef
  | .type _ ty => .type .invariant (wire ty)
  | .star => .star

end

theorem wireArgs_eq_map (args : List (TypeArg TypeRef)) : wireArgs args = args.map wireArg := by
  induction args with
  | nil => rfl
  | cons arg rest ih => simp [wireArgs, ih]

end DaoGen.TypeRef
