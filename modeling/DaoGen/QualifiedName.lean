import DaoGen.Text.Fragment

/-!
# Qualified names

The path of a declaration inside its crate. Generated modules and files are named by the last
name of the path, its simple name.
-/
namespace DaoGen

/-- A path of names joined by `::`. -/
structure QualifiedName where
  path : String
  deriving DecidableEq, Repr, Inhabited

namespace QualifiedName

/-- The last name of the path. -/
def simple (name : QualifiedName) : String := Text.lastSegment name.path

/-- The path of a name declared inside a module; the root module has an empty path. -/
def inside (module : String) (name : String) : QualifiedName :=
  ⟨if module = "" then name else module ++ "::" ++ name⟩

end QualifiedName

end DaoGen
