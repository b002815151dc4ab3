/-!
# Diagnostics

A diagnostic has a severity, a message and perhaps the place that it is about. A `Tracker` keeps
every diagnostic of a pass and remembers whether one of them was an error.
-/
namespace DaoGen

/-- A file, and a line in it if it is known. -/
structure Location where
  file : String
  line : Option Nat := none
  deriving DecidableEq, Repr

def Location.text (location : Location) : String :=
  match location.line with
  | some line => location.file ++ ":" ++ toString line
  | none => location.file

inductive Severity where
  | info
  | warning
  | error
  deriving DecidableEq, Repr

def Severity.label : Severity → String
  | .info => "info"
  | .warning => "warning"
  | .error => "error"

structure Diagnostic where
  severity : Severity
  message : String
  location : Option Location := none
  deriving DecidableEq, Repr

namespace Diagnostic

def text (d : Diagnostic) : String :=
  let message := d.severity.label ++ ": " ++ d.message
  match d.location with
  | some location => message ++ " (" ++ location.text ++ ")"
  | none => message

def isError (d : Diagnostic) : Bool := d.severity == .error

def warning (message : String) (location : Option Location) : Diagnostic :=
  ⟨.warning, message, location⟩

def error (message : String) (location : Option Location) : Diagnostic :=
  ⟨.error, message, location⟩

end Diagnostic

/-- The diagnostics of a pass in report order. The mark is set by the first error and stays. -/
structure Tracker where
  kept : List Diagnostic := []
  failed : Bool := false
  deriving DecidableEq, Repr

namespace Tracker

def report (tracker : Tracker) (d : Diagnostic) : Tracker where
  kept := tracker.kept ++ [d]
  failed := tracker.failed || d.isError

/-- Reports a sequence of diagnostics. -/
def reportAll (tracker : Tracker) (ds : List Diagnostic) : Tracker := ds.foldl report tracker

theorem kept_reportAll (tracker : Tracker) (ds : List Diagnostic) :
    (tracker.reportAll ds).kept = tracker.kept ++ ds := by
  induction ds generalizing tracker with
  | nil => simp [reportAll]
  | cons d ds ih => simpa [reportAll, report] using ih (tracker.report d)

theorem failed_reportAll (tracker : Tracker) (ds : List Diagnostic) :
    (tracker.reportAll ds).failed = (tracker.failed || ds.any Diagnostic.isError) := by
  induction ds generalizing tracker with
  | nil => simp [reportAll]
  | cons d ds ih => simpa [reportAll, report, Bool.or_assoc] using ih (tracker.report d)

/-- The kept diagnostics of one severity. -/
def ofSeverity (tracker : Tracker) (severity : Severity) : List Diagnostic :=
  tracker.kept.filter (·.severity == severity)

end Tracker

end DaoGen
