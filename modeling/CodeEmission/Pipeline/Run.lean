import CodeEmission.Assembly.Listing
import CodeEmission.Object.Assemble
import CodeEmission.Object.Pack
import CodeEmission.Pipeline.Options
import CodeEmission.Progress.Event
import CodeEmission.Stage.Basic
import CodeEmission.Trace.Recorder

/-!
# Running Stages and Writing the Result

`runStages` runs a list of stages over a unit. It ends after the last one, after the one that the
options stop at, or after the first one that fails; each stage that was run leaves a `StageStep`.
`WriteStep.ofUnit` then renders the unit and hands the result to a sink, in one piece.

The trace, the progress events and the timed phases of a run are all functions of the steps.
-/

namespace CodeEmission

/-- Why a stage did not leave a valid unit behind. -/
inductive StageCause where
  | failed (faults : List StageFault)
  | invalid (cause : VerifyError)
  | checkFailed (fault : StageFault)
  deriving DecidableEq, Repr

/-- A stage that failed. -/
structure StageFailure where
  /-- The stage. -/
  stage : String
  /-- What was wrong. -/
  cause : StageCause
  deriving DecidableEq, Repr

/-- Whether the unit after the stage was rejected, rather than the stage itself failing. -/
def StageFailure.isVerification (f : StageFailure) : Bool :=
  match f.cause with
  | .failed _ => false
  | .invalid _ | .checkFailed _ => true

/-- The wording of a failure. -/
def StageFailure.message (f : StageFailure) : String :=
  match f.cause with
  | .failed faults => "stage failed in stage " ++ f.stage ++ ": " ++ StageFault.messages faults
  | .invalid cause => "verification failed in stage " ++ f.stage ++ ": " ++ cause.message
  | .checkFailed fault => "verification failed in stage " ++ f.stage ++ ": " ++ fault.message

/-- A stage that was run. -/
structure StageStep where
  /-- The stage. -/
  name : String
  /-- What it noted, symbol by symbol. -/
  notes : List SymbolNote := []
  /-- Why it failed, if it did. -/
  failure? : Option StageFailure := none
  deriving DecidableEq, Repr

/-- How a run of stages ended. -/
inductive Ending where
  | finished
  | stopped
  | failed (failure : StageFailure)
  deriving DecidableEq, Repr

/-- A run of stages. -/
structure StageRun where
  /-- The stages that were run, in order. -/
  steps : List StageStep
  /-- The unit after the last of them. -/
  unit : CodeUnit
  /-- How the run ended. -/
  ending : Ending
  deriving DecidableEq, Repr

/-- What is wrong after a stage. The unit is looked at only when the options ask for it, and the
stage's own check comes after the structural one. -/
def Stage.failure? (p : Profile) (verify : Bool) (s : Stage) (out : StageOutcome) :
    Option StageFailure :=
  if out.faults ≠ [] then some ⟨s.name, .failed out.faults⟩
  else if verify then
    match CodeEmission.verify (some out.unit) with
    | .error cause => some ⟨s.name, .invalid cause⟩
    | .ok () =>
      (s.check.bind fun check => check p out.unit).map fun fault => ⟨s.name, .checkFailed fault⟩
  else none

/-- Run stages one after another, each on the result of the one before. -/
def runStages (p : Profile) (o : Options) : List Stage → CodeUnit → StageRun
  | [], u => { steps := [], unit := u, ending := .finished }
  | s :: rest, u =>
    let out := s.run p u
    let step : StageStep := { name := s.name, notes := out.notes }
    match s.failure? p o.verify out with
    | some failure =>
      { steps := [{ step with failure? := some failure }], unit := out.unit,
        ending := .failed failure }
    | none =>
      if s.name = o.stopAfter then { steps := [step], unit := out.unit, ending := .stopped }
      else
        let r := runStages p o rest out.unit
        { r with steps := step :: r.steps }

/-- A unit as it is written. -/
inductive Rendering where
  | listing (text : String)
  | object (bytes : List UInt8)
  deriving DecidableEq, Repr

namespace Rendering

/-- The bytes of a rendering. -/
def bytes : Rendering → List UInt8
  | listing text => Text.bytesOfText text
  | object bytes => bytes

/-- How many bytes a rendering has. -/
def size : Rendering → Nat
  | listing text => text.utf8ByteSize
  | object bytes => bytes.length

end Rendering

/-- Why a unit has no rendering. -/
inductive RenderError where
  | listing (cause : ListingError)
  | object (cause : AssembleError)
  deriving DecidableEq, Repr

/-- The wording of a failure. -/
def RenderError.message : RenderError → String
  | listing cause => cause.message
  | object cause => cause.message

/-- The rendering of a unit in a kind; kinds that write nothing have none. -/
def FileKind.render? (p : Profile) (u : CodeUnit) : FileKind → Option (Except RenderError Rendering)
  | asm => some <|
    match assemblyText p u with
    | .ok text => .ok (.listing text)
    | .error e => .error (.listing e)
  | obj => some <|
    match Object.assemble p u with
    | .ok o => .ok (.object (Pack.object o))
    | .error e => .error (.object e)
  | null | other _ => none

/-- Where the result goes: a sink that takes it, one whose writes fail, or none. -/
inductive Sink where
  | accepting
  | failing (text : String)
  | absent
  deriving DecidableEq, Repr, Inhabited

/-- How writing the result went. -/
inductive WriteStep where
  | unrendered (cause : RenderError)
  | refused (text : String)
  | written (output : Rendering)
  deriving DecidableEq, Repr

namespace WriteStep

/-- Render a unit and hand the result to a sink, if the kind writes anything. -/
def ofUnit? (p : Profile) (kind : FileKind) (sink : Sink) (u : CodeUnit) : Option WriteStep :=
  (kind.render? p u).map fun
    | .error cause => .unrendered cause
    | .ok output =>
      match sink with
      | .failing text => .refused text
      | .accepting | .absent => .written output

/-- The text of the failure, if writing failed. -/
def failure? : WriteStep → Option String
  | unrendered cause => some cause.message
  | refused text => some text
  | written _ => none

/-- How often the sink was written to. -/
def writes : WriteStep → Nat
  | unrendered _ => 0
  | refused _ | written _ => 1

/-- What the sink took. -/
def output? : WriteStep → Option Rendering
  | unrendered _ | refused _ => none
  | written output => some output

/-- The part of a log that tells of the writing. -/
def acts (kind : FileKind) (w : WriteStep) : List Trace.Act :=
  [.opens .stage ("write:" ++ kind.text),
    match w with
    | written output => .closes "" [("bytes", Nat.repr output.size)]
    | unrendered _ | refused _ => .closes "failed" []]

/-- The progress event of the writing. -/
def progress (unit : String) (w : WriteStep) : Progress.Event :=
  { unit
    status := if w.failure?.isSome then .error else .done
    failure? := w.failure? }

end WriteStep

namespace StageStep

/-- The part of a log that tells of a stage. -/
def acts (s : StageStep) : List Trace.Act :=
  .opens .stage ("stage:" ++ s.name) ::
    s.notes.map (fun n => .point .symbol ("symbol:" ++ n.symbol) n.name) ++
    [match s.failure? with
      | some f => .closes "failed" [("error", f.message)]
      | none => .closes "" []]

/-- The progress events of a stage. -/
def progress (unit : String) (s : StageStep) : List Progress.Event :=
  [{ unit, stage := s.name, status := .working },
    match s.failure? with
    | some f => { unit, stage := s.name, status := .error, failure? := some f.message }
    | none => { unit, stage := s.name, status := .done }]

end StageStep

end CodeEmission
