import DaoGen.Emission.Database
import DaoGen.Emission.Endpoint
import DaoGen.Emission.Replication

/-!
# Emission

Units are generated by emitters. On each target an emitter has a list of jobs for each dialect, or
only for the primary one if its units are the same for all. Every job gives one unit or one error,
and an error keeps nothing else from being generated.
-/
namespace DaoGen

open Emission Code

/-- The content of a unit. -/
inductive UnitCode where
  | daoImpl (code : DaoImpl)
  | schema (code : Schema)
  | database (code : DatabaseStruct)
  | replication (code : Replication)
  | httpEndpoint (code : Router)
  deriving Repr

namespace UnitCode

def kind : UnitCode → UnitKind
  | .daoImpl _ => .daoImpl
  | .schema _ => .schema
  | .database _ => .database
  | .replication _ => .replication
  | .httpEndpoint _ => .httpEndpoint

def tokens : UnitCode → List Token
  | .daoImpl code => code.tokens
  | .schema code => code.tokens
  | .database code => code.tokens
  | .replication code => code.tokens
  | .httpEndpoint code => code.tokens

end UnitCode

/-- A generated unit. -/
structure SourceUnit where
  target : Target
  dialect : Option Dialect
  subject : QualifiedName
  code : UnitCode
  deriving Repr

namespace SourceUnit

def id (u : SourceUnit) : UnitId := ⟨u.target, u.dialect, u.subject, u.code.kind⟩

/-- The first line of every generated file. -/
def header : String := "// @generated by replikit-codegen. Do not edit."

/-- The text of the file of a unit. -/
def content (u : SourceUnit) : String := header ++ "\n" ++ textOf u.code.tokens ++ "\n"

end SourceUnit

/-- What generates units. -/
inductive Emitter where
  | implementation
  | replication
  | http
  deriving DecidableEq, Repr

/-- One unit to generate. -/
inductive Job where
  | schema
  | database (database : Database)
  | daoImpl (dao : Dao)
  | replication (dao : Dao)
  | httpEndpoint (dao : Dao)
  deriving DecidableEq, Repr

namespace Job

def kind : Job → UnitKind
  | .schema => .schema
  | .database _ => .database
  | .daoImpl _ => .daoImpl
  | .replication _ => .replication
  | .httpEndpoint _ => .httpEndpoint

/-- What the unit is about. -/
def subject : Job → QualifiedName
  | .schema => ⟨"schema"⟩
  | .database d => d.name
  | .daoImpl dao | .replication dao | .httpEndpoint dao => dao.name

/-- Generates the content of the unit. A failure names what failed, which is an entity if it is one
that keeps a schema from being generated. -/
def run (ctx : Context) (job : Job) : Except (QualifiedName × EmitCause) UnitCode :=
  match job with
  | .schema => (Schema.ofContext ctx).map .schema
  | .database d => ((DatabaseStruct.ofDatabase ctx d).mapError (job.subject, ·)).map .database
  | .daoImpl dao => ((DaoImpl.ofDao ctx dao).mapError (job.subject, ·)).map .daoImpl
  | .replication dao => ((Replication.ofDao ctx dao).mapError (job.subject, ·)).map .replication
  | .httpEndpoint dao => ((Router.ofDao ctx dao).mapError (job.subject, ·)).map .httpEndpoint

end Job

namespace Emitter

/-- All emitters, in the order in which they run by default. -/
def all : List Emitter := [.implementation, .replication, .http]

def name : Emitter → String
  | .implementation => "implementation"
  | .replication => "replication"
  | .http => "http"

def pass : Emitter → Pass
  | .implementation => .implementation
  | .replication => .replication
  | .http => .httpEndpoint

/-- Whether there are units for each dialect. -/
def isPerDialect : Emitter → Bool
  | .implementation | .http => true
  | .replication => false

/-- The dialects that units are generated with on a target. -/
def dialects (emitter : Emitter) (target : Target) : List Dialect :=
  if emitter.isPerDialect then target.dialects else [target.primary]

/-- The units that do not belong to a single DAO. -/
def sharedJobs (emitter : Emitter) (model : Model) : List Job :=
  match emitter with
  | .implementation =>
    (if model.entities.isEmpty then [] else [.schema]) ++ model.databases.map .database
  | .replication | .http => []

/-- The unit of a DAO. -/
def daoJob (emitter : Emitter) (dao : Dao) : Job :=
  match emitter with
  | .implementation => .daoImpl dao
  | .replication => .replication dao
  | .http => .httpEndpoint dao

/-- All units for a dialect. -/
def jobs (emitter : Emitter) (model : Model) : List Job :=
  emitter.sharedJobs model ++ model.daos.map emitter.daoJob

end Emitter

/-- An attempt to generate a unit: which emitter, for what, and with which dialect. -/
structure EmissionAttempt where
  emitter : Emitter
  target : Target
  dialect : Dialect
  job : Job
  deriving DecidableEq, Repr

namespace EmissionAttempt

/-- The dialect of the unit, unless it is for all dialects. -/
def unitDialect (a : EmissionAttempt) : Option Dialect :=
  if a.emitter.isPerDialect then some a.dialect else none

/-- Generates the unit. -/
def run (model : Model) (runtime : String) (a : EmissionAttempt) :
    Except EmissionError SourceUnit :=
  match a.job.run { model, target := a.target, dialect := a.dialect, runtime } with
  | .ok code => .ok { target := a.target, dialect := a.unitDialect, subject := a.job.subject, code }
  | .error (subject, cause) =>
    .error {
      emitter := a.emitter.name, subject, target := a.target, dialect := a.unitDialect, cause }

end EmissionAttempt

/-- The units and errors of a target, with the diagnostics about the errors. -/
structure TargetEmission where
  units : List SourceUnit := []
  errors : List EmissionError := []
  diagnostics : List Diagnostic := []
  deriving Repr

namespace TargetEmission

/-- Where the declaration of a name is: of an entity, a DAO or a database. -/
def locationOf (model : Model) (name : QualifiedName) : Option Location :=
  ((model.entity? name).bind (·.location)) <|> ((model.dao? name).bind (·.location)) <|>
    ((model.databases.find? (·.name == name)).bind (·.location))

/-- Where an error of an attempt is to be reported. -/
def errorLocation (model : Model) (a : EmissionAttempt) (e : EmissionError) : Option Location :=
  match a.job with
  | .daoImpl dao | .replication dao | .httpEndpoint dao => dao.location
  | .schema | .database _ => locationOf model e.subject

/-- The diagnostic about an error of an attempt. -/
def errorDiagnostic (model : Model) (a : EmissionAttempt) (e : EmissionError) : Diagnostic :=
  .error e.message (errorLocation model a e)

/-- All attempts on a target, in order. -/
def attempts (emitters : List Emitter) (model : Model) (target : Target) :
    List EmissionAttempt :=
  (emitters.filter fun e => target.runs e.pass).flatMap fun emitter =>
    (emitter.dialects target).flatMap fun dialect =>
      (emitter.jobs model).map fun job => { emitter, target, dialect, job }

/-- Takes up the outcome of an attempt. -/
def take (model : Model) (runtime : String) (emission : TargetEmission) (a : EmissionAttempt) :
    TargetEmission :=
  match a.run model runtime with
  | .ok u => { emission with units := emission.units ++ [u] }
  | .error e =>
    { emission with
      errors := emission.errors ++ [e]
      diagnostics := emission.diagnostics ++ [errorDiagnostic model a e] }

/-- Generates all units of a target. -/
def ofModel (emitters : List Emitter) (model : Model) (target : Target) (runtime : String) :
    TargetEmission :=
  (attempts emitters model target).foldl (take model runtime) {}

end TargetEmission

end DaoGen
