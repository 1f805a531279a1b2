import CodeEmission.Pipeline.Run
import CodeEmission.Stage.Standard
import CodeEmission.Timing

/-!
# Drivers

A driver emits one unit. It starts idle, is configured once and then emits once; after that it is
completed or failed for good. A call that does not fit the state is refused and changes nothing.

`Driver.emit` gives an `Emission`: the stages that were run, how the result was written and the
driver afterwards. Everything else that a caller may see of a run — the trace, the progress events,
the result — is read off it.
-/

namespace CodeEmission

/-- The position of a driver in its life. `running` is never seen between two calls. -/
inductive Lifecycle where
  | idle | configured | running | completed | failed
  deriving DecidableEq, Repr, Inhabited

/-- The name of a position. -/
def Lifecycle.name : Lifecycle → String
  | idle => "idle"
  | configured => "configured"
  | running => "running"
  | completed => "completed"
  | failed => "failed"

/-- Why a driver refused its options. -/
inductive ConfigureError where
  | wrongState (state : Lifecycle)
  | noProfile
  | unsupportedKind (name : String)
  | duplicateStage (name : String)
  | unknownStart (name : String)
  | unknownStop (name : String)
  | emptyWindow (start stop : String)
  deriving DecidableEq, Repr

/-- The wording of a refusal. -/
def ConfigureError.message : ConfigureError → String
  | wrongState state => "invalid driver state: configure in state " ++ state.name
  | noProfile => "driver has no convention profile"
  | unsupportedKind name => "unsupported file kind " ++ Text.quote name
  | duplicateStage name => "duplicate stage name " ++ Text.quote name
  | unknownStart name => "unknown stage: start-after " ++ Text.quote name
  | unknownStop name => "unknown stage: stop-after " ++ Text.quote name
  | emptyWindow start stop =>
    "start-after " ++ Text.quote start ++ " must precede stop-after " ++ Text.quote stop

/-- Why an emission failed, or was refused. -/
inductive EmitError where
  | wrongState (state : Lifecycle)
  | noUnit
  | noSink
  | noProfile
  | stage (failure : StageFailure)
  | unrendered (cause : RenderError)
  | refused (text : String)
  deriving DecidableEq, Repr

/-- The wording of a failure. -/
def EmitError.message : EmitError → String
  | wrongState state => "invalid driver state: emit in state " ++ state.name
  | noUnit => "nil compilation unit"
  | noSink => "no output sink"
  | noProfile => ConfigureError.noProfile.message
  | stage failure => failure.message
  | unrendered cause => "output writer failed: " ++ cause.message
  | refused text => "output writer failed: " ++ text

/-- A driver. -/
structure Driver where
  /-- The conventions that it emits under. -/
  profile? : Option Profile
  /-- The stages, in the order in which they run. -/
  stages : List Stage
  /-- The request that it was configured for. -/
  options : Options := {}
  /-- Its position in its life. -/
  state : Lifecycle := .idle
  /-- The phases that were timed. -/
  timer : Timing.Timer := {}

/-- The first name that stands twice in a list. -/
def firstRepeated? : List String → List String → Option String
  | _, [] => none
  | seen, name :: rest => if name ∈ seen then some name else firstRepeated? (name :: seen) rest

namespace Driver

/-- An idle driver of the standard stages. -/
def standard (p : Profile) : Driver :=
  { profile? := some p, stages := Stage.standard }

/-- The names of the stages. -/
def stageNames (d : Driver) : List String :=
  d.stages.map Stage.name

/-- The place of a stage that the options name: none when they name none, and an error when there
is no such stage. -/
def place? (d : Driver) (name : String) (unknown : String → ConfigureError) :
    Except ConfigureError (Option Nat) :=
  if name = "" then .ok none
  else match d.stageNames.findIdx? (· = name) with
    | some i => .ok (some i)
    | none => .error (unknown name)

/-- The kind that a request means; one that names none gets assembly text. -/
def acceptKind : FileKind → Except ConfigureError FileKind
  | .other "" => .ok .asm
  | .other name => .error (.unsupportedKind name)
  | kind => .ok kind

/-- Look at a request and complete it. -/
def accept (d : Driver) (o : Options) : Except ConfigureError Options := do
  if d.state ≠ .idle then throw (.wrongState d.state)
  if d.profile?.isNone then throw .noProfile
  let fileKind ← acceptKind o.fileKind
  -- the names must be distinct before one of them can mark the window
  if let some name := firstRepeated? [] d.stageNames then throw (.duplicateStage name)
  let start ← d.place? o.startAfter .unknownStart
  let stop ← d.place? o.stopAfter .unknownStop
  match start, stop with
  | some i, some j => if j ≤ i then throw (.emptyWindow o.startAfter o.stopAfter)
  | _, _ => pure ()
  return { o with fileKind }

/-- Bind a driver to a request. A refused request leaves the driver as it was. -/
def configure (d : Driver) (o : Options) : Except ConfigureError Driver :=
  (d.accept o).map fun options => { d with options, state := .configured }

/-- How many stages the options skip. -/
def skipCount (d : Driver) : Nat :=
  if d.options.startAfter = "" then 0
  else match d.stageNames.findIdx? (· = d.options.startAfter) with
    | some i => i + 1
    | none => 0

end Driver

/-- A finished run of a driver. -/
structure Emission where
  /-- The unit's name. -/
  unitName : String
  /-- The kind of output. -/
  kind : FileKind
  /-- The stages that were skipped. -/
  skipped : List String
  /-- The stages that were run. -/
  run : StageRun
  /-- How the result was written, if it came to that. -/
  write? : Option WriteStep
  deriving DecidableEq, Repr

namespace Emission

/-- Run the stages of a driver and write the result. Writing happens only when the last stage was
reached. -/
def ofDriver (d : Driver) (p : Profile) (u : CodeUnit) (sink : Sink) : Emission :=
  let n := d.skipCount
  let run := runStages p d.options (d.stages.drop n) u
  { unitName := u.name
    kind := d.options.fileKind
    skipped := d.stageNames.take n
    run
    write? := match run.ending with
      | .finished => WriteStep.ofUnit? p d.options.fileKind sink run.unit
      | .stopped | .failed _ => none }

/-- Why the run failed, if it did. -/
def failure? (e : Emission) : Option EmitError :=
  match e.run.ending, e.write? with
  | .failed failure, _ => some (.stage failure)
  | _, some (.unrendered cause) => some (.unrendered cause)
  | _, some (.refused text) => some (.refused text)
  | _, _ => none

/-- How often the sink was written to. -/
def writes (e : Emission) : Nat :=
  match e.write? with
  | some w => w.writes
  | none => 0

/-- What the sink took. -/
def output? (e : Emission) : Option Rendering :=
  e.write?.bind WriteStep.output?

/-- The names of the stages that were run. -/
def executed (e : Emission) : List String :=
  e.run.steps.map StageStep.name

/-- The names of the timed phases. -/
def phases (e : Emission) : List String :=
  e.executed ++ if e.write?.isSome then ["write"] else []

/-- The log of the run: the unit's span around the skipped stages, the stages and the writing. -/
def acts (e : Emission) : List Trace.Act :=
  .opens .unit ("unit:" ++ e.unitName) ::
    e.skipped.map (fun name => .point .stage ("stage:" ++ name) "skipped") ++
    e.run.steps.flatMap StageStep.acts ++
    e.write?.toList.flatMap (WriteStep.acts e.kind) ++
    [match e.failure? with
      | some f => .closes "failed" [("error", f.message)]
      | none => .closes "ok" []]

/-- The progress events of the run. -/
def progress (e : Emission) : List Progress.Event :=
  { unit := e.unitName, status := .queued } ::
    e.run.steps.flatMap (StageStep.progress e.unitName) ++
    e.write?.toList.map (WriteStep.progress e.unitName)

end Emission

namespace Driver

/-- Emit a unit. A call that is refused gives an error alone and leaves the driver as it was; one
that is carried out gives the run and the driver after it. -/
def emit (d : Driver) (u? : Option CodeUnit) (sink : Sink) :
    Except EmitError (Emission × Driver) :=
  if d.state ≠ .configured then .error (.wrongState d.state)
  else match u? with
    | none => .error .noUnit
    | some u =>
      if sink = .absent && d.options.fileKind ≠ .null then .error .noSink
      else match d.profile? with
        | none => .error .noProfile
        | some p =>
          let e := Emission.ofDriver d p u sink
          .ok (e, { d with
            state := if e.failure?.isSome then .failed else .completed
            timer := { phases := d.timer.phases ++ e.phases.map fun name => { name } } })

end Driver

end CodeEmission
