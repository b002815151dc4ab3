import DaoGen.Code.ItemSyntax
import DaoGen.Target
import DaoGen.Text.Fragment

/-!
# Options

Options are given as `key=value` arguments. Arguments without an equals sign and arguments with a
key of somebody else are passed over; a value that a known key cannot take is an error.
-/
namespace DaoGen

/-- What can be wrong with an option. -/
inductive OptionError where
  | unsupportedTarget (written : String)
  | invalidValue (key value : String)
  deriving DecidableEq, Repr

def OptionError.message : OptionError → String
  | .unsupportedTarget written =>
    "unsupported target `" ++ written ++ "` (expected one of: jvm, mobile, browser)"
  | .invalidValue key value =>
    "invalid value `" ++ value ++ "` for option `" ++ key ++ "`"

/-- How code is generated: for which targets, whether they are worked on at the same time, and
the name of the crate that generated code calls. -/
structure Options where
  targets : List Target := Target.all
  parallel : Bool := false
  runtime : String := "replikit"
  deriving DecidableEq, Repr

namespace Options

def targetsKey : String := "replikit.targets"
def parallelKey : String := "replikit.parallel"
def runtimeKey : String := "replikit.runtime_crate"

/-- Targets in table order, each once. -/
def normalizeTargets (targets : List Target) : List Target :=
  Target.all.filter targets.contains

/-- The options with generation restricted to the given targets. -/
def withTargets (options : Options) (targets : List Target) : Options :=
  { options with targets := normalizeTargets targets }

def withParallel (options : Options) (parallel : Bool) : Options :=
  { options with parallel }

/-- The target that one item of a target list names. -/
def parseTarget (written : String) : Except OptionError Target :=
  match Target.ofName? written with
  | some target => .ok target
  | none => .error (.unsupportedTarget written)

/-- The items of a list between commas that are not blank. -/
def listItems (value : String) : List String :=
  ((Text.pieces ',' value.toList).map String.ofList).filter fun item => Text.trim item != ""

def parseTargets (value : String) : Except OptionError (List Target) := do
  let targets ← (listItems value).mapM parseTarget
  if targets.isEmpty then .error (.invalidValue targetsKey value)
  else .ok (normalizeTargets targets)

/-- Yes or no, in any letter case. -/
def parseSwitch (key value : String) : Except OptionError Bool :=
  match Text.lower value with
  | "true" | "1" | "yes" => .ok true
  | "false" | "0" | "no" => .ok false
  | _ => .error (.invalidValue key value)

/-- The name of a crate, perhaps after `::`. It is a name that needs no raw form. -/
def parseRuntime (key value : String) : Except OptionError String :=
  let written := Text.trimPrefix "::" value
  if (Text.stripPrefix? "r#" written).isSome then .error (.invalidValue key value)
  else
    match Code.parseName written with
    | some name => .ok name
    | none => .error (.invalidValue key value)

/-- The key and value of an argument, without blanks around them. -/
def keyAndValue? (argument : String) : Option (String × String) :=
  (Text.splitFirst? '=' argument.toList).map fun (key, value) =>
    (Text.trim (String.ofList key), Text.trim (String.ofList value))

/-- The options changed by one argument. -/
def apply (options : Options) (argument : String) : Except OptionError Options :=
  match keyAndValue? argument with
  | none => .ok options
  | some (key, value) =>
    if key = targetsKey then do
      let targets ← parseTargets value
      return { options with targets }
    else if key = parallelKey then do
      let parallel ← parseSwitch key value
      return { options with parallel }
    else if key = runtimeKey then do
      let runtime ← parseRuntime key value
      return { options with runtime }
    else .ok options

/-- The options that a list of arguments gives. The first error wins. -/
def ofArgs (arguments : List String) : Except OptionError Options :=
  arguments.foldlM apply {}

end Options

end DaoGen
