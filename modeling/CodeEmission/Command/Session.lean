import CodeEmission.Command.Job
import CodeEmission.Command.Line
import CodeEmission.CodeUnit.Decode
import CodeEmission.Platform.Resolver

/-!
# Sessions

A session is what a command has said so far: its standard output, its error output and its trace. A
command is a computation that reads and extends the session, works on a file system, and may end in
a `CommandError`; what was said before the end is kept.

`withTracing` and `withProfiles` surround a command with the files that it is observed through. They
end what they began also when the command fails.
-/

namespace CodeEmission.Command

/-- Why a command failed. -/
inductive CommandError where
  | flags (cause : FlagError)
  | usage (cause : UsageError)
  | colour (value : String)
  | format (value : String)
  | traceFlag (cause : TraceFlagError)
  | traceSetup (cause : Trace.SetupError)
  | traceOutput (cause : FileError)
  | profile (label : String) (cause : FileError)
  | config (cause : ConfigError)
  | settings (cause : SettingsError)
  | display (value : String)
  | manyInputs (count : Nat)
  | twoOutputs
  | target (cause : ResolveError)
  | options (cause : ConfigureError)
  | input (path : String) (cause : Toml.ShapeError)
  | job (path : String) (cause : JobError)
  deriving DecidableEq, Repr

/-- The wording of a failure. -/
def CommandError.message : CommandError → String
  | flags cause => cause.message
  | usage cause => cause.message
  | colour value => "invalid --color value " ++ Text.quote value ++ " (expected auto|on|off)"
  | format value => "unsupported format " ++ Text.quote value ++ " (must be pretty or json)"
  | traceFlag cause => cause.message
  | traceSetup cause => "failed to create tracer: " ++ cause.message
  | traceOutput cause => "failed to create tracer: failed to open trace output: " ++ cause.message
  | profile label cause => label ++ ": " ++ cause.message
  | config cause => cause.message
  | settings cause => cause.message
  | display value => Display.badFlagMessage value
  | manyInputs count => "-o requires a single input, got " ++ Nat.repr count
  | twoOutputs => "-o and --out-dir are mutually exclusive"
  | target cause => cause.message
  | options cause => cause.message
  | input path cause => path ++ ": " ++ cause.message
  | job path cause => path ++ ": " ++ cause.message

/-- What a command finds around it. -/
structure Surroundings where
  /-- Build information. -/
  version : Version := {}
  /-- How many processors there are. -/
  processors : Int64 := 4
  /-- Whether standard output is a terminal. -/
  terminal : Bool := false
  /-- The time, in nanoseconds since 1970. -/
  now : Int := 0
  deriving Repr, Inhabited

/-- What a command has said so far. -/
structure Session where
  /-- Standard output. -/
  output : List UInt8 := []
  /-- The error output of the command. -/
  errors : String := ""
  /-- What the trace wrote to the error output of the process. -/
  traced : String := ""
  /-- The trace. -/
  recorder : Trace.Recorder := {}
  deriving Repr, Inhabited

/-- A command at work. -/
abbrev Run (m : Type → Type) := ExceptT CommandError (StateT Session m)

section

variable {m : Type → Type} [Monad m] {Handle : Type}

namespace Run

/-- Go on with a result, or fail with its error. -/
def lift {ε α : Type} (wrap : ε → CommandError) : Except ε α → Run m α
  | .ok a => pure a
  | .error e => throw (wrap e)

/-- Do something outside of the session. -/
def outside {α : Type} (act : m α) : Run m α :=
  ExceptT.lift (StateT.lift act)

/-- Do something outside of the session that may fail. -/
def attempt {ε α : Type} (wrap : ε → CommandError) (act : ExceptT ε m α) : Run m α := do
  lift wrap (← outside act.run)

/-- Write bytes to standard output. -/
def printBytes (bytes : List UInt8) : Run m Unit :=
  modify fun s => { s with output := s.output ++ bytes }

/-- Write to standard output. -/
def print (text : String) : Run m Unit :=
  printBytes (Text.bytesOfText text)

/-- Write to the error output. -/
def complain (text : String) : Run m Unit :=
  modify fun s => { s with errors := s.errors ++ text }

/-- Run a command and hand its end to what follows. -/
def ending {α : Type} (body : Run m α) : Run m (Except CommandError α) :=
  ExceptT.lift body.run

end Run

/-- Make the file of a profile, if it is asked for. -/
def openProfile (fs : FileSystem m Handle) (path : String) : ExceptT FileError m (Option Handle) :=
  if path = "" then pure none
  else do return some (← FileSystem.attempt "open" [path] (fs.create path))

/-- Finish the file of a profile. There is no more in it than its name. -/
def finishProfile (fs : FileSystem m Handle) (label : String) (handle? : Option Handle) :
    Run m Unit := do
  if let some handle := handle? then
    let _ ← Run.outside (fs.write handle (Text.bytesOfText (label ++ "\n")))
    let _ ← Run.outside (fs.close handle)

/-- Write the profile that is taken at the end. -/
def writeHeapProfile (fs : FileSystem m Handle) (path : String) : Run m Unit := do
  match ← Run.outside (openProfile fs path).run with
  | .ok handle? => finishProfile fs "heap profile" handle?
  | .error e => Run.complain ("failed to write profiles: heap profile: " ++ e.message ++ "\n")

/-- Run a command under the profiles that are asked for. -/
def withProfiles (fs : FileSystem m Handle) (p : ProfilePaths) (body : Run m Unit) :
    Run m Unit := do
  let cpu? ← Run.attempt (.profile "cpu profile") (openProfile fs p.cpu)
  match ← Run.outside (openProfile fs p.runtime).run with
  | .error e =>
    finishProfile fs "cpu profile" cpu?
    throw (.profile "runtime trace" e)
  | .ok runtime? =>
    let result ← Run.ending body
    finishProfile fs "runtime trace" runtime?
    finishProfile fs "cpu profile" cpu?
    writeHeapProfile fs p.heap
    Run.lift id result

/-- Write the trace to where it is asked for. -/
def deliverTrace (fs : FileSystem m Handle) (q : Trace.Request) (handle? : Option Handle) :
    Run m Unit := do
  let recorder := (← get).recorder
  if q.storage = .ring then
    Run.complain (String.join ((recorder.tracer.snapshot?.getD []).map Trace.Event.text))
  let text := String.join recorder.writer.written.toList
  match handle? with
  | some handle =>
    let _ ← Run.outside (fs.write handle (Text.bytesOfText text))
    let _ ← Run.outside (fs.close handle)
  | none => modify fun s => { s with traced := s.traced ++ text }

/-- Run a command with the trace that is asked for. -/
def withTracing (fs : FileSystem m Handle) (now : Int) (q : Trace.Request) (body : Run m Unit) :
    Run m Unit := do
  let tracer ← Run.lift .traceSetup q.tracer
  let handle? ← if q.streams ∧ q.path ≠ "" ∧ q.path ≠ "-" then
      some <$> Run.attempt .traceOutput (FileSystem.attempt "open" [q.path] (fs.create q.path))
    else pure none
  modify fun s => { s with recorder := { tracer, now } }
  let result ← Run.ending body
  deliverTrace fs q handle?
  Run.lift id result

end

end CodeEmission.Command
