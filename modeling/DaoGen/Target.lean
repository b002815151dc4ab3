import DaoGen.Text.Blank
import DaoGen.Text.LetterCase

/-!
# Targets and dialects

Code is generated for targets. A target supports some database dialects, the first of which is
its primary one, and some of the generation passes.
-/
namespace DaoGen

/-- A platform for which code is generated. -/
inductive Target where
  | jvm
  | mobile
  | browser
  deriving DecidableEq, Repr

/-- A dialect of SQL. -/
inductive Dialect where
  | sqlite
  | postgres
  deriving DecidableEq, Repr

/-- A kind of code that is generated. -/
inductive Pass where
  | implementation
  | replication
  | httpEndpoint
  deriving DecidableEq, Repr

namespace Target

/-- Every target, in table order. -/
def all : List Target := [.jvm, .mobile, .browser]

/-- The place of a target in the table. -/
def rank : Target → Nat
  | .jvm => 0
  | .mobile => 1
  | .browser => 2

/-- The primary dialect of a target. -/
def primary : Target → Dialect
  | _ => .sqlite

/-- The dialects that a target supports, the primary one first. -/
def dialects : Target → List Dialect
  | .jvm => [.sqlite, .postgres]
  | .mobile | .browser => [.sqlite]

/-- The passes that run for a target: only a server answers requests. -/
def passes : Target → List Pass
  | .jvm => [.implementation, .replication, .httpEndpoint]
  | .mobile | .browser => [.implementation, .replication]

def runs (t : Target) (pass : Pass) : Bool := t.passes.contains pass

/-- Whether generated code may block the calling thread. -/
def supportsBlocking : Target → Bool
  | .browser => false
  | _ => true

/-- The name of a target, which is also that of its directory and driver module. -/
def name : Target → String
  | .jvm => "jvm"
  | .mobile => "mobile"
  | .browser => "browser"

/-- The part of generated type names that stands for the target. -/
def suffix : Target → String
  | .jvm => "Jvm"
  | .mobile => "Mobile"
  | .browser => "Browser"

/-- The target that a name stands for, in any letter case and with blanks around it. -/
def ofName? (written : String) : Option Target :=
  match Text.lower (Text.trim written) with
  | "jvm" => some .jvm
  | "mobile" | "android" => some .mobile
  | "browser" | "js" | "wasm" => some .browser
  | _ => none

theorem primary_eq_head (t : Target) : t.dialects.head? = some t.primary := by cases t <;> rfl

theorem mem_all (t : Target) : t ∈ all := by cases t <;> simp [all]

/-- All pairs of a target and one of its dialects. -/
def pairs (targets : List Target) : List (Target × Dialect) :=
  targets.flatMap fun t => t.dialects.map (t, ·)

end Target

namespace Dialect

/-- The name of a dialect, which is also that of its directory. -/
def name : Dialect → String
  | .sqlite => "sqlite"
  | .postgres => "postgres"

/-- The part of generated type names that stands for the dialect. -/
def suffix : Dialect → String
  | .sqlite => "Sqlite"
  | .postgres => "Postgres"

/-- The type of a connection. -/
def connection : Dialect → String
  | .sqlite => "SqliteConnection"
  | .postgres => "PostgresConnection"

/-- The number that tells generated code which dialect it runs on. -/
def discriminator : Dialect → Nat
  | .sqlite => 1
  | .postgres => 2

/-- The dialect that a name stands for, in any letter case. -/
def ofName? (written : String) : Option Dialect :=
  match Text.lower written with
  | "sqlite" => some .sqlite
  | "postgres" | "postgresql" | "pg" => some .postgres
  | _ => none

/-- The placeholder for the parameter at a position, counted from 1. -/
def placeholder (d : Dialect) (position : Nat) : String :=
  match d with
  | .sqlite => "?"
  | .postgres => "$" ++ toString position

/-- Placeholders for the first `count` parameters. -/
def placeholders (d : Dialect) (count : Nat) : String :=
  ", ".intercalate ((List.range' 1 count).map d.placeholder)

/-- Assignments of the parameters in order to the given columns. -/
def assignments (d : Dialect) (columns : List String) : String :=
  ", ".intercalate (columns.zipIdx.map fun (column, i) => column ++ " = " ++ d.placeholder (i + 1))

end Dialect

end DaoGen
