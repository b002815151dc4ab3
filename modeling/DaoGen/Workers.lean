import DaoGen.Outcome

/-!
# Workers

Targets can be worked on at the same time, by one worker each. Workers share the tracker of the pass
and nothing else that changes: everyone makes the attempts of its target in order and keeps the
units and errors to itself until it is joined. To report an error is two accesses to the tracker,
the first of which sets the mark, and others may come between them.

A schedule says whose turn it is. A worker that is done does nothing in its turn.
-/
namespace DaoGen

namespace Tracker

/-- The first access of a report. -/
def latch (tracker : Tracker) (d : Diagnostic) : Tracker :=
  { tracker with failed := tracker.failed || d.isError }

/-- The second access of a report. -/
def keep (tracker : Tracker) (d : Diagnostic) : Tracker :=
  { tracker with kept := tracker.kept ++ [d] }

theorem keep_latch (tracker : Tracker) (d : Diagnostic) :
    (tracker.latch d).keep d = tracker.report d :=
  rfl

end Tracker

/-- What a worker still has to try, the error that it is reporting, and what it has so far. -/
structure Worker where
  todo : List EmissionAttempt
  sending : Option (EmissionError × Diagnostic) := none
  emission : TargetEmission := {}
  deriving Repr

namespace Worker

/-- The worker of a target. -/
def ofTarget (emitters : List Emitter) (model : Model) (target : Target) : Worker :=
  { todo := TargetEmission.attempts emitters model target }

def isDone (w : Worker) : Bool := w.todo.isEmpty && w.sending.isNone

/-- One turn of a worker: it ends a report, or makes an attempt, which begins a report if it
fails. -/
def step (model : Model) (runtime : String) (tracker : Tracker) (w : Worker) : Tracker × Worker :=
  match w.sending, w.todo with
  | some (e, d), _ =>
    (tracker.keep d,
      { w with
        sending := none
        emission := { w.emission with
          errors := w.emission.errors ++ [e]
          diagnostics := w.emission.diagnostics ++ [d] } })
  | none, [] => (tracker, w)
  | none, a :: rest =>
    match a.run model runtime with
    | .ok u =>
      (tracker,
        { w with todo := rest, emission := { w.emission with units := w.emission.units ++ [u] } })
    | .error e =>
      let d := TargetEmission.errorDiagnostic model a e
      (tracker.latch d, { w with todo := rest, sending := some (e, d) })

end Worker

/-- Workers with the tracker that they share. -/
structure Workers where
  tracker : Tracker
  workers : List Worker
  deriving Repr

namespace Workers

/-- The turn of one worker. -/
def step (model : Model) (runtime : String) (s : Workers) (i : Nat) : Workers :=
  match s.workers[i]? with
  | none => s
  | some w =>
    let (tracker, w) := w.step model runtime s.tracker
    ⟨tracker, s.workers.set i w⟩

/-- The turns of a schedule. -/
def run (model : Model) (runtime : String) (s : Workers) (schedule : List Nat) : Workers :=
  schedule.foldl (step model runtime) s

def isDone (s : Workers) : Bool := s.workers.all Worker.isDone

end Workers

/-- What the joined workers of the targets give. Everything is reported by then. -/
def Outcome.ofWorkers (e : Extraction) (s : Workers) : Outcome :=
  let emissions := s.workers.map (·.emission)
  let errors := emissions.flatMap (·.errors)
  { state := .done (errors.isEmpty && !s.tracker.failed)
    units := distinct (emissions.flatMap (·.units))
    deferred := e.deferred
    emissionErrors := errors
    diagnostics := s.tracker.kept }

/-- Runs a pass whose targets are worked on at the same time, in the turns of a schedule. The
tracker is that at the end. There is no outcome if a worker is not done by then. -/
def runConcurrently (options : Options) (emitters : List Emitter) (source : DeclarationSource)
    (schedule : List Nat) : Option (Tracker × Outcome) :=
  let e := Extraction.ofSource source
  let tracker := Tracker.reportAll {} e.diagnostics
  if !e.isValid || tracker.failed then
    some (tracker, {
      state := .done false, deferred := e.deferred, modelErrors := e.errors
      diagnostics := tracker.kept })
  else
    let s := Workers.run e.model options.runtime
      ⟨tracker, options.targets.map (Worker.ofTarget emitters e.model)⟩ schedule
    if s.isDone then some (s.tracker, Outcome.ofWorkers e s) else none

end DaoGen
