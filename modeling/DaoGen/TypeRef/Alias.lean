import DaoGen.Text.Fragment

/-!
# Platform names of types

Some platforms name a type differently. `alias?` gives the common name of such a type. A nominal
alias is a type of its own, converted into the common one; any other alias is the same type.
-/
namespace DaoGen

/-- The common name behind a platform name. -/
structure Alias where
  canonical : String
  nominal : Bool
  deriving DecidableEq, Repr

namespace Alias

def same (canonical : String) : Alias := ⟨canonical, false⟩

def wrapper (canonical : String) : Alias := ⟨canonical, true⟩

/-- Names of the virtual machine's native types. -/
def ofMachine? (name : String) : Option Alias :=
  match (Text.stripPrefix? "jni::sys::" name).getD name with
  | "jboolean" => some (same "bool")
  | "jbyte" => some (same "i8")
  | "jchar" => some (same "u16")
  | "jshort" => some (same "i16")
  | "jint" => some (same "i32")
  | "jlong" => some (same "i64")
  | "jfloat" => some (same "f32")
  | "jdouble" => some (same "f64")
  | "jsize" => some (same "i32")
  | _ => none

/-- Names of the browser's value types. -/
def ofBrowser? (name : String) : Option Alias :=
  match name with
  | "JsString" => some (wrapper "String")
  | "Number" => some (wrapper "f64")
  | "Boolean" => some (wrapper "bool")
  | "BigInt" => some (wrapper "i64")
  | _ => none

/-- Names of the types of the C interface. -/
def ofForeign? (name : String) : Option Alias :=
  match name with
  | "c_char" | "c_schar" => some (same "i8")
  | "c_uchar" => some (same "u8")
  | "c_short" => some (same "i16")
  | "c_ushort" => some (same "u16")
  | "c_int" => some (same "i32")
  | "c_uint" => some (same "u32")
  | "c_long" | "c_longlong" => some (same "i64")
  | "c_ulong" | "c_ulonglong" => some (same "u64")
  | "c_float" => some (same "f32")
  | "c_double" => some (same "f64")
  | _ => none

/-- The primitive types. -/
def primitives : List String :=
  ["bool", "char", "str", "i8", "i16", "i32", "i64", "i128", "isize", "u8", "u16", "u32", "u64",
    "u128", "usize", "f32", "f64"]

/-- Full paths of types of the standard library, after the name of the library. -/
def ofLibrary? (path : String) : Option Alias :=
  match Text.stripPrefix? "primitive::" path with
  | some primitive => if primitives.contains primitive then some (same primitive) else none
  | none =>
    match Text.stripPrefix? "os::raw::" path <|> Text.stripPrefix? "ffi::" path with
    | some name => ofForeign? name
    | none =>
      match path with
      | "vec::Vec" => some (same "Vec")
      | "string::String" => some (same "String")
      | "boxed::Box" => some (same "Box")
      | "rc::Rc" => some (same "Rc")
      | "sync::Arc" => some (same "Arc")
      | "option::Option" => some (same "Option")
      | "collections::HashMap" => some (same "HashMap")
      | "collections::HashSet" => some (same "HashSet")
      | "collections::BTreeMap" => some (same "BTreeMap")
      | "collections::BTreeSet" => some (same "BTreeSet")
      | _ => none

/-- The path after the name of a part of the standard library. -/
def libraryPath? (name : String) : Option String :=
  ["std::", "core::", "alloc::"].findSome? (Text.stripPrefix? · name)

end Alias

/-- The alias that a type name is, if it is one. The path may be absolute. -/
def alias? (name : String) : Option Alias :=
  let name := (Text.stripPrefix? "::" name).getD name
  match Alias.ofMachine? name with
  | some machine => some machine
  | none =>
    match Text.stripPrefix? "js_sys::" name with
    | some rest => Alias.ofBrowser? rest
    | none => (Alias.libraryPath? name).bind Alias.ofLibrary?

/-- The common name of a type. -/
def canonicalName (name : String) : String := (alias? name).elim name Alias.canonical

end DaoGen
