import DaoGen.Code.ItemSyntax
import DaoGen.Text.Fragment
import DaoGen.Text.Similarity

/-!
# Arguments of attributes

The arguments of an attribute are words, named values and named lists of arguments. A form says
which names there are and what each can take; reading against a form finds every fault, first
those of the arguments in order, then the missing ones.
-/
namespace DaoGen

open Code

/-- What follows the name of an argument. -/
inductive ArgumentValue where
  | word
  | list (tokens : List Token)
  | value (value : ValueSyntax)
  deriving Repr

/-- An argument: a literal, or a name with what follows it. -/
inductive Argument where
  | literal
  | named (absolute : Bool) (path : List String) (value : ArgumentValue)
  deriving Repr

/-- What can be wrong with the arguments of an attribute. -/
inductive ArgumentFault where
  /-- the tokens are not a list of arguments -/
  | unreadable (message : String)
  | unexpectedFormat (format : String)
  | unexpectedType (type : String)
  | unknownValue (written : String)
  | invalidNumber (message : String)
  | unknownField (name : String) (known : List String)
  | missingField (name : String)
  | repeatedField (name : String)
  /-- inside the value of the given argument -/
  | inside (field : String) (fault : ArgumentFault)
  | several (faults : List ArgumentFault)
  deriving Repr, Inhabited

namespace ArgumentFault

/-- Names in quotes, in alphabetical order. -/
def quotedNames (names : List String) : String :=
  ", ".intercalate ((names.mergeSort fun a b => a ≤ b).map fun name => "`" ++ name ++ "`")

/-- What to write instead of an unknown name. -/
def advice (name : String) (known : List String) : String :=
  match Text.nearest? name known with
  | some best => ". Did you mean `" ++ best ++ "`?"
  | none => if known.isEmpty then "" else ". Available values: " ++ quotedNames known

/-- The end of a message: the names of the arguments on the way to the fault. -/
def place (path : List String) : String :=
  if path.isEmpty then "" else " at " ++ "/".intercalate path

mutual

/-- The wording of a fault inside the arguments of the given path. -/
def messageAt (path : List String) : ArgumentFault → String
  | .unreadable message => message ++ place path
  | .unexpectedFormat format => "Unexpected meta-item format `" ++ format ++ "`" ++ place path
  | .unexpectedType type => "Unexpected type `" ++ type ++ "`" ++ place path
  | .unknownValue written => "Unknown value: `" ++ written ++ "`" ++ place path
  | .invalidNumber message => message ++ place path
  | .unknownField name known => "Unknown field: `" ++ name ++ "`" ++ advice name known ++ place path
  | .missingField name => "Missing field `" ++ name ++ "`" ++ place path
  | .repeatedField name => "Duplicate field `" ++ name ++ "`" ++ place path
  | .inside field fault => messageAt (path ++ [field]) fault
  | .several faults =>
    "Multiple errors: (" ++ ", ".intercalate (messages faults) ++ ")" ++ place path

/-- The wordings of several faults. -/
def messages : List ArgumentFault → List String
  | [] => []
  | fault :: rest => messageAt [] fault :: messages rest

end

/-- The wording of a fault. -/
def message (fault : ArgumentFault) : String := messageAt [] fault

/-- One fault for a list of them. -/
def ofList? : List ArgumentFault → Option ArgumentFault
  | [] => none
  | [fault] => some fault
  | faults => some (.several faults)

end ArgumentFault

namespace Argument

/-! ## Reading tokens -/

/-- What follows the name of an argument. The kind of its brackets does not matter. -/
def valueOf : AttributeArguments → ArgumentValue
  | .none => .word
  | .list _ tokens => .list tokens
  | .value value => .value value

/-- The argument that a tree stands for, unless it is a comma. -/
def ofTree? : ParseTree Part → Option Argument
  | .node .literalArgument _ => some .literal
  | .node .namedArgument children =>
    let path := attributePath children
    some (.named (TypeReading.startsWithColon path) (pathNames path)
      (valueOf (readArguments children)))
  | _ => none

/-- The arguments that tokens stand for. -/
def readList (tokens : List Token) : Except ArgumentFault (List Argument) :=
  match language.parse .argumentList tokens with
  | .ok trees => .ok (trees.filterMap ofTree?)
  | .error fault => .error (.unreadable fault.message)

end Argument

/-! ## Reading values -/

/-- Reads what follows the name of an argument. -/
abbrev ArgumentReader (T : Type) := ArgumentValue → Except ArgumentFault T

namespace ArgumentReader

/-- How the type of a literal is called. -/
def typeName : LiteralValue → String
  | .string _ => "string"
  | .byteString => "byte string"
  | .zeroEnded => "unknown"
  | .byte => "byte"
  | .character _ => "char"
  | .integer _ => "int"
  | .float => "float"
  | .boolean _ => "bool"
  | .broken => "verbatim"

/-- A reader that takes neither words nor lists, and of values only literals. -/
def ofLiteral {T : Type} (read : LiteralValue → Except ArgumentFault T) : ArgumentReader T
  | .word => .error (.unexpectedFormat "word")
  | .list tokens => do
    let _ ← Argument.readList tokens
    .error (.unexpectedFormat "list")
  | .value (.expression kind) => .error (.unexpectedType kind)
  | .value (.literal text) =>
    match LiteralValue.of? text with
    | some value => read value
    | none => .error (.unexpectedType "verbatim")

/-- Reads text. -/
def text : ArgumentReader String :=
  ofLiteral fun
    | .string value => .ok value
    | value => .error (.unexpectedType (typeName value))

/-- Reads yes or no; the mere name says yes. -/
def flag : ArgumentReader Bool
  | .word => .ok true
  | value =>
    ofLiteral (fun
      | .boolean value => .ok value
      | .string "true" => .ok true
      | .string "false" => .ok false
      | .string written => .error (.unknownValue written)
      | value => .error (.unexpectedType (typeName value))) value

/-- The largest number that a version can be: the largest one of 32 bits. -/
def maxNumber : Nat := 4294967295

/-- The number that digits stand for, perhaps after a plus sign. -/
def number? (written : String) : Option Nat :=
  let digits := (Text.stripPrefix? "+" written).getD written
  if digits.isEmpty || !digits.all Char.isDigit then none
  else
    let n := digitsValue 10 digits.toList
    if n ≤ maxNumber then some n else none

/-- Reads a number of 32 bits. -/
def number : ArgumentReader Nat :=
  ofLiteral fun
    | .string written =>
      match number? written with
      | some n => .ok n
      | none => .error (.unknownValue written)
    | .integer digits =>
      match number? digits with
      | some n => .ok n
      | none =>
        if digits.startsWith "-" then .error (.invalidNumber "invalid digit found in string")
        else .error (.invalidNumber "number too large to fit in target type")
    | value => .error (.unexpectedType (typeName value))

/-- A path as written, without blanks. -/
def pathText (absolute : Bool) (path : List String) : String :=
  (if absolute then "::" else "") ++ "::".intercalate path

/-- Reads what a path stands for from each argument of a list. -/
def pathsOf : List Argument → Except ArgumentFault (List String)
  | [] => .ok []
  | .named absolute path .word :: rest => do
    return pathText absolute path :: (← pathsOf rest)
  | _ => .error (.unexpectedType "non-word")

/-- Reads a list of paths. -/
def paths : ArgumentReader (List String)
  | .list tokens => do pathsOf (← Argument.readList tokens)
  | value =>
    ofLiteral (fun value => .error (.unexpectedType (typeName value))) value

/-- Reads a list of arguments against a form. -/
def ofForm {T : Type} (read : List Argument → Except ArgumentFault T) : ArgumentReader T
  | .list tokens => do read (← Argument.readList tokens)
  | value =>
    ofLiteral (fun value => .error (.unexpectedType (typeName value))) value

end ArgumentReader

/-! ## Forms -/

/-- One name of a form: whether it has to be there, whether it can be there more than once, and
what its value can be. -/
structure FormField where
  name : String
  required : Bool := false
  repeats : Bool := false
  fault? : ArgumentValue → Option ArgumentFault

namespace FormField

/-- The fault that a reader finds. -/
def faultOf {T : Type} (read : ArgumentReader T) (value : ArgumentValue) :
    Option ArgumentFault :=
  match read value with
  | .error fault => some fault
  | .ok _ => none

/-- A name that may be missing. -/
def optional {T : Type} (name : String) (read : ArgumentReader T) : FormField where
  name := name
  fault? := faultOf read

/-- A name that has to be there. -/
def mandatory {T : Type} (name : String) (read : ArgumentReader T) : FormField where
  name := name
  required := true
  fault? := faultOf read

/-- A name that can be there any number of times. -/
def repeated {T : Type} (name : String) (read : ArgumentReader T) : FormField where
  name := name
  repeats := true
  fault? := faultOf read

end FormField

namespace Argument

/-- The name of an argument. -/
def nameText (path : List String) : String := "::".intercalate path

/-- The fault of an argument of a known name, if the names in `seen` came before. The copies of a
name that can be repeated are numbered. -/
def fieldFault? (field : FormField) (seen : List String) (value : ArgumentValue) :
    Option ArgumentFault :=
  if field.repeats then
    (field.fault? value).map
      (.inside (field.name ++ "[" ++ toString (seen.count field.name) ++ "]"))
  else if seen.contains field.name then some (.repeatedField field.name)
  else (field.fault? value).map (.inside field.name)

/-- The faults of arguments, if the names in `seen` came before. A faulty copy of a name that can
be repeated does not count as one. -/
def faultsAfter (form : List FormField) (seen : List String) :
    List Argument → List ArgumentFault
  | [] => []
  | .literal :: rest => .unexpectedFormat "literal" :: faultsAfter form seen rest
  | .named _ path value :: rest =>
    match form.find? (·.name == nameText path) with
    | none =>
      .unknownField (nameText path) (form.map (·.name)) :: faultsAfter form seen rest
    | some field =>
      match fieldFault? field seen value with
      | none => faultsAfter form (field.name :: seen) rest
      | some fault =>
        fault :: faultsAfter form (if field.repeats then seen else field.name :: seen) rest

/-- Whether an argument of the given name is there. -/
def has (name : String) (arguments : List Argument) : Bool :=
  arguments.any fun
    | .named _ path _ => nameText path == name
    | .literal => false

/-- All faults of arguments. -/
def faults (form : List FormField) (arguments : List Argument) : List ArgumentFault :=
  faultsAfter form [] arguments ++
    (form.filter fun field => field.required && !has field.name arguments).map
      fun field => .missingField field.name

/-- The values of the arguments of a name. -/
def values {T : Type} (name : String) (read : ArgumentReader T) (arguments : List Argument) :
    List T :=
  arguments.filterMap fun
    | .named _ path value => if nameText path = name then (read value).toOption else none
    | .literal => none

/-- The value of the only argument of a name. -/
def value? {T : Type} (name : String) (read : ArgumentReader T) (arguments : List Argument) :
    Option T :=
  (values name read arguments).head?

/-- What arguments without faults stand for. -/
def readForm {T : Type} (form : List FormField) (build : List Argument → T)
    (arguments : List Argument) : Except ArgumentFault T :=
  match ArgumentFault.ofList? (faults form arguments) with
  | some fault => .error fault
  | none => .ok (build arguments)

end Argument

end DaoGen
