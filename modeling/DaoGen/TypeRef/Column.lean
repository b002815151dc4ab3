import DaoGen.Target
import DaoGen.TypeRef

/-!
# Column types

The type of the column that stores values of a type in normal form. Types that are not listed
cannot be stored.
-/
namespace DaoGen

/-- The column type of a list of bytes. -/
def Dialect.bytesType : Dialect → String
  | .sqlite => "BLOB"
  | .postgres => "BYTEA"

/-- The column type of a type without arguments, by its simple name. -/
def Dialect.plainType? (dialect : Dialect) (name : String) : Option String :=
  match dialect, name with
  | .sqlite, "bool" | .sqlite, "i8" | .sqlite, "i16" | .sqlite, "i32" | .sqlite, "i64"
  | .sqlite, "isize" | .sqlite, "u8" | .sqlite, "u16" | .sqlite, "u32" | .sqlite, "u64"
  | .sqlite, "usize" => some "INTEGER"
  | .sqlite, "f32" | .sqlite, "f64" => some "REAL"
  | .postgres, "bool" => some "BOOLEAN"
  | .postgres, "i8" | .postgres, "i16" | .postgres, "u8" => some "SMALLINT"
  | .postgres, "i32" | .postgres, "u16" => some "INTEGER"
  | .postgres, "i64" | .postgres, "u32" | .postgres, "u64" | .postgres, "isize"
  | .postgres, "usize" => some "BIGINT"
  | .postgres, "f32" => some "REAL"
  | .postgres, "f64" => some "DOUBLE PRECISION"
  | _, "String" | _, "str" | _, "char" => some "TEXT"
  | _, _ => none

namespace TypeRef

/-- Whether a type is a byte, which may be behind a reference. -/
def isByte (t : TypeRef) : Bool := t.name == "u8" && !t.nullable && t.args.isEmpty

/-- The type of the column for a type. -/
def columnType? (t : TypeRef) (dialect : Dialect) : Option String :=
  if t.reference then none
  else if t.simpleName == "Vec" && t.firstArg?.any isByte then some dialect.bytesType
  else if t.args.isEmpty then dialect.plainType? t.simpleName
  else none

end TypeRef

end DaoGen
