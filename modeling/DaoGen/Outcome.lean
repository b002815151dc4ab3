import DaoGen.Emission
import DaoGen.Extraction
import DaoGen.Options

/-!
# Passes

A pass models the declarations of a source and generates units for every target of its options. It
stops before any unit is generated if a declaration is malformed, and it fails if there is an error
of any kind; declarations that were put off are handed back and do not count. On the way an
identifier is made of the name of the runtime crate, by a function that may panic.
-/
namespace DaoGen

/-- How far a pass has come. -/
inductive PassState where
  | collecting
  | modeling
  | emitting
  | done (success : Bool)
  deriving DecidableEq, Repr

def PassState.label : PassState → String
  | .collecting => "collecting"
  | .modeling => "modeling"
  | .emitting => "emitting"
  | .done true => "done"
  | .done false => "failed"

/-- What a pass gave, and everything that was reported on the way. -/
structure Outcome where
  state : PassState
  units : List SourceUnit := []
  deferred : List Declaration := []
  modelErrors : List MalformedDeclaration := []
  emissionErrors : List EmissionError := []
  diagnostics : List Diagnostic := []
  deriving Repr

namespace Outcome

def isSuccess (o : Outcome) : Bool := o.state == .done true

/-- The first unit with the given file. -/
def unit? (o : Outcome) (path : String) : Option SourceUnit := o.units.find? (·.id.path == path)

/-- The units whose identities are not among those in `seen` and not those of earlier units. -/
def distinctAfter (seen : List UnitId) : List SourceUnit → List SourceUnit
  | [] => []
  | u :: rest =>
    if seen.contains u.id then distinctAfter seen rest
    else u :: distinctAfter (u.id :: seen) rest

/-- The first unit of each identity. -/
def distinct (units : List SourceUnit) : List SourceUnit := distinctAfter [] units

/-- What the emissions of the targets give, after the modeling of a valid source. -/
def ofEmissions (e : Extraction) (tracker : Tracker) (emissions : List TargetEmission) :
    Outcome :=
  let tracker := tracker.reportAll (emissions.flatMap (·.diagnostics))
  let errors := emissions.flatMap (·.errors)
  { state := .done (errors.isEmpty && !tracker.failed)
    units := distinct (emissions.flatMap (·.units))
    deferred := e.deferred
    emissionErrors := errors
    diagnostics := tracker.kept }

end Outcome

section Passes

variable {m : Type → Type} [Monad m]

/-- What the targets give. Generated code calls the runtime crate by an identifier, which is made of
the name in the options. If targets are worked on at the same time, each of them makes it for
itself, and else it is made once. -/
def emissionsWith (newIdentifier : String → m String) (options : Options)
    (emitters : List Emitter) (model : Model) : m (List TargetEmission) :=
  if options.parallel then
    options.targets.mapM fun target => do
      let runtime ← newIdentifier options.runtime
      return TargetEmission.ofModel emitters model target runtime
  else do
    let runtime ← newIdentifier options.runtime
    return options.targets.map fun target => TargetEmission.ofModel emitters model target runtime

/-- A pass once its declarations have been modeled. -/
def Outcome.ofExtraction (newIdentifier : String → m String) (options : Options)
    (emitters : List Emitter) (e : Extraction) : m Outcome :=
  let tracker := Tracker.reportAll {} e.diagnostics
  if !e.isValid || tracker.failed then
    return { state := .done false, deferred := e.deferred, modelErrors := e.errors
             diagnostics := tracker.kept }
  else do
    let emissions ← emissionsWith newIdentifier options emitters e.model
    return Outcome.ofEmissions e tracker emissions

/-- Runs a pass over a source, with a function that makes identifiers of texts. A pass comes to no
outcome where that function comes to no identifier. -/
def runPassWith (newIdentifier : String → m String) (options : Options) (emitters : List Emitter)
    (source : DeclarationSource) : m Outcome :=
  Outcome.ofExtraction newIdentifier options emitters (Extraction.ofSource source)

theorem emissionsWith_of_pure [LawfulMonad m] {newIdentifier : String → m String}
    {options : Options} (h : newIdentifier options.runtime = pure options.runtime)
    (emitters : List Emitter) (model : Model) :
    emissionsWith newIdentifier options emitters model =
      pure (options.targets.map fun target =>
        TargetEmission.ofModel emitters model target options.runtime) := by
  unfold emissionsWith
  split
  · simp only [h, pure_bind, List.mapM_pure]
  · rw [h, pure_bind]

end Passes

/-- Makes identifiers of plain ones; on any other text there is a panic. -/
def newPlain (text : String) : Option String :=
  if Text.isIdentifierText text.toList then some text else none

/-- The outcome of a pass for which an identifier is made of the name of the runtime crate. -/
def runPass (options : Options) (emitters : List Emitter) (source : DeclarationSource) : Outcome :=
  Id.run (runPassWith pure options emitters source)

theorem runPass_eq (options : Options) (emitters : List Emitter) (source : DeclarationSource) :
    runPass options emitters source =
      let e := Extraction.ofSource source
      let tracker := Tracker.reportAll {} e.diagnostics
      if !e.isValid || tracker.failed then
        { state := .done false, deferred := e.deferred, modelErrors := e.errors
          diagnostics := tracker.kept }
      else
        Outcome.ofEmissions e tracker
          (options.targets.map fun target =>
            TargetEmission.ofModel emitters e.model target options.runtime) := by
  dsimp only [runPass, runPassWith, Outcome.ofExtraction]
  rw [emissionsWith_of_pure rfl, pure_bind, apply_ite Id.run]
  rfl

end DaoGen
