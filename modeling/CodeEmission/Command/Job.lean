import CodeEmission.Command.Settings
import CodeEmission.Pipeline.Driver

/-!
# Jobs

A job emits one unit: it runs a driver of its own and puts the result where it belongs, into a file
or on standard output, either of which may refuse it. What became of a job is a `JobResult`, from
which its trace, its progress events and its timings are read.

A number of jobs runs at a time. A job that would start only after another one has failed is not
run; jobs that are under way are finished.
-/

namespace CodeEmission.Command

/-- A unit to emit. -/
structure Job where
  /-- The path of the input. -/
  input : String
  /-- Where the output goes: a path, a dash for standard output, or nothing. -/
  output : String
  /-- The unit. -/
  unit : CodeUnit
  deriving DecidableEq, Repr

/-- Why a job failed. -/
inductive JobError where
  | cancelled
  | unconfigured (cause : ConfigureError)
  | emission (cause : EmitError)
  | output (causes : List FileError)
  | unprinted (text : String)
  deriving DecidableEq, Repr

/-- The wording of a failure. -/
def JobError.message : JobError → String
  | cancelled => "context canceled"
  | unconfigured cause => cause.message
  | emission cause => cause.message
  | output causes => FileError.messages causes
  | unprinted text => text

/-- What became of a job. -/
structure JobResult where
  /-- The job. -/
  job : Job
  /-- The run of its driver, if it came to that. -/
  emission? : Option Emission := none
  /-- What the driver timed. -/
  timings : Timing.Report := {}
  /-- What it wrote on standard output. -/
  printed : List UInt8 := []
  /-- Why it failed, if it did. -/
  failure? : Option JobError := none
  deriving Repr

namespace JobResult

/-- The log of a job. -/
def acts (r : JobResult) : List Trace.Act :=
  r.emission?.toList.flatMap Emission.acts

/-- The event that ends a job. -/
def finalEvent (r : JobResult) : Progress.Event :=
  { unit := r.job.unit.name
    status := if r.failure?.isSome then .error else .done
    failure? := r.failure?.map JobError.message }

/-- The progress events of a job: those of its driver and one for the job as a whole. -/
def progress (r : JobResult) : List Progress.Event :=
  r.emission?.toList.flatMap Emission.progress ++ [r.finalEvent]

/-- The line that tells of an output file, if the job wrote one. -/
def notice (o : Options) (r : JobResult) : String :=
  if r.failure?.isNone && r.job.output ≠ "" && r.job.output ≠ "-" && producesOutput o then
    "wrote " ++ r.job.output ++ "\n"
  else ""

end JobResult

section Run

variable {m : Type → Type} [Monad m] {Handle : Type}

/-- Put the output of a job where it belongs. -/
def deliver (fs : FileSystem m Handle) (stdout : Sink) (r : JobResult) (bytes : List UInt8) :
    m JobResult := do
  if r.job.output = "-" then
    match stdout with
    | .failing text => return { r with failure? := some (.unprinted text) }
    | .accepting | .absent => return { r with printed := bytes }
  else
    match ← fs.writeAtomic r.job.output bytes with
    | .ok () => return r
    | .error causes => return { r with failure? := some (.output causes) }

/-- Run a job. -/
def runJob (fs : FileSystem m Handle) (stdout : Sink) (p : Profile) (o : Options) (job : Job) :
    m JobResult := do
  match (Driver.standard p).configure o with
  | .error cause => return { job, failure? := some (.unconfigured cause) }
  | .ok d =>
    match d.emit (some job.unit) .accepting with
    | .error cause => return { job, failure? := some (.emission cause) }
    | .ok (e, d) =>
      let r : JobResult :=
        { job
          emission? := some e
          timings := d.timer.report
          failure? := e.failure?.map JobError.emission }
      if r.failure?.isNone && producesOutput o then
        deliver fs stdout r ((e.output?.map Rendering.bytes).getD [])
      else return r

/-- Run jobs, so many at a time. The results so far stand in order; a job is cancelled when one of
those that had to end before it could start has failed. -/
def runJobs (fs : FileSystem m Handle) (stdout : Sink) (p : Profile) (o : Options) (atATime : Nat) :
    List JobResult → List Job → m (List JobResult)
  | results, [] => pure results
  | results, job :: rest => do
    let ended := results.take (results.length + 1 - atATime)
    let r ← if ended.any fun r => r.failure?.isSome then
        pure { job, failure? := some .cancelled }
      else runJob fs stdout p o job
    runJobs fs stdout p o atATime (results ++ [r]) rest

end Run

end CodeEmission.Command
