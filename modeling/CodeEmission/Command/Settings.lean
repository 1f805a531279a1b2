import CodeEmission.Command.Config
import CodeEmission.Command.Flag
import CodeEmission.Pipeline.Options
import CodeEmission.Platform.Profile
import CodeEmission.Text.Decimal
import CodeEmission.Trace.Recorder

/-!
# Settings

What a run does is settled in three layers: the defaults, the configuration file over them, and the
flags of the command line over both. A value of the file that a flag replaces is not used, but the
file's kind of output is read even then.

The other flags — how to trace, whether to show progress, where the output goes — have no place in
the file.
-/

namespace CodeEmission.Command

/-- The flags of every command. -/
def commonFlags : List Flag :=
  [{ name := "color" }, { name := "quiet", kind := .switch },
    { name := "timings", kind := .switch }, { name := "config" }, { name := "x86-asm-syntax" },
    { name := "mark-data-regions", kind := .switch }, { name := "trace" },
    { name := "trace-level" }, { name := "trace-mode" },
    { name := "trace-ring-size", kind := .number }, { name := "cpu-profile" },
    { name := "mem-profile" }, { name := "runtime-trace" }]

/-- The flags of the command that emits units. -/
def emitFlags : List Flag :=
  [{ name := "target" }, { name := "filetype" }, { name := "verify", kind := .switch },
    { name := "start-after" }, { name := "stop-after" }, { name := "output", letter? := some 'o' },
    { name := "out-dir" }, { name := "jobs", kind := .number }, { name := "ui" }]

/-- The settings that flags give. -/
structure Overrides where
  /-- The platform. -/
  triple? : Option String := none
  /-- The assembler dialect. -/
  dialect? : Option String := none
  /-- Whether jump tables are marked as data. -/
  markDataRegions? : Option Bool := none
  /-- The kind of output. -/
  fileKind? : Option String := none
  /-- Whether the unit is checked after each stage. -/
  verify? : Option Bool := none
  /-- The stage to start after. -/
  startAfter? : Option String := none
  /-- The stage to stop after. -/
  stopAfter? : Option String := none
  /-- How many units are emitted at a time. -/
  jobs? : Option Int64 := none
  deriving DecidableEq, Repr, Inhabited

/-- The settings of a command line. -/
def Overrides.ofWords (w : Words) : Overrides :=
  { triple? := w.text? "target"
    dialect? := w.text? "x86-asm-syntax"
    markDataRegions? := w.switch? "mark-data-regions"
    fileKind? := w.text? "filetype"
    verify? := w.switch? "verify"
    startAfter? := w.text? "start-after"
    stopAfter? := w.text? "stop-after"
    jobs? := w.number? "jobs" }

/-- Why the layers give no settings. A bad kind of output holds the file that it stands in, if it
stands in one. -/
inductive SettingsError where
  | dialect (cause : DialectError)
  | fileKind (file? : Option String) (value : String)
  | jobs (n : Int64)
  deriving DecidableEq, Repr

/-- The wording of a failure. -/
def SettingsError.message : SettingsError → String
  | dialect cause => cause.message
  | fileKind (some file) value => file ++ ": " ++ FileKind.badFlagMessage value
  | fileKind none value => FileKind.badFlagMessage value
  | jobs n => "--jobs must be positive, got " ++ Text.ofInt64 n

/-- What a run does. -/
structure Settings where
  /-- The platform. -/
  triple : String
  /-- The choices that enter the platform's profile. -/
  conventions : Conventions := {}
  /-- What is done with each unit. -/
  options : Options := { fileKind := .asm }
  /-- How many units are emitted at a time. -/
  jobs : Int64
  deriving DecidableEq, Repr

/-- A kind of output as it is spelled in a file or a flag. -/
def readKind (file? : Option String) (value : String) : Except SettingsError FileKind :=
  match FileKind.ofFlag? value with
  | some kind => .ok kind
  | none => .error (.fileKind file? value)

/-- The choices that enter the platform's profile. -/
def resolveConventions (file? : Option ConfigFile) (o : Overrides) :
    Except SettingsError Conventions :=
  let values := (file?.map ConfigFile.values).getD {}
  match Dialect.parse ((o.dialect? <|> values.dialect?).getD "") with
  | .error cause => .error (.dialect cause)
  | .ok dialect =>
    .ok {
      dialect
      markDataRegions := (o.markDataRegions? <|> values.markDataRegions?).getD false }

namespace Settings

/-- The settings without a file and flags. -/
def standard (processors : Int64) : Settings :=
  { triple := Triple.host.render, jobs := processors }

/-- The settings with those of a file over them. -/
def withFile (s : Settings) (file : ConfigFile) : Except SettingsError Settings := do
  let kind ← match file.values.fileKind? with
    | some value => readKind (some file.path) value
    | none => pure s.options.fileKind
  return { s with
    triple := (file.values.triple?.map Text.trim).getD s.triple
    options := { s.options with
      fileKind := kind
      verify := file.values.verify?.getD s.options.verify }
    jobs := file.values.jobs?.getD s.jobs }

/-- The settings with those of flags over them. -/
def withFlags (s : Settings) (o : Overrides) : Except SettingsError Settings := do
  let kind ← match o.fileKind? with
    | some value => readKind none value
    | none => pure s.options.fileKind
  return { s with
    triple := o.triple?.getD s.triple
    options :=
      { fileKind := kind
        verify := o.verify?.getD s.options.verify
        startAfter := o.startAfter?.getD s.options.startAfter
        stopAfter := o.stopAfter?.getD s.options.stopAfter }
    jobs := o.jobs?.getD s.jobs }

/-- The settings of a run: the defaults, the file, the flags. -/
def resolve (processors : Int64) (file? : Option ConfigFile) (o : Overrides) :
    Except SettingsError Settings := do
  let conventions ← resolveConventions file? o
  let base := { standard processors with conventions }
  let filed ← match file? with
    | some file => base.withFile file
    | none => pure base
  let s ← filed.withFlags o
  if s.jobs < 1 then throw (.jobs s.jobs)
  return s

end Settings

/-- Whether emission leaves an output behind. -/
def producesOutput (o : Options) : Bool :=
  o.fileKind ≠ .null && o.stopAfter = ""

/-- The path of the output for an input: the one that is asked for, or the input's stem with the
ending of the kind, in the output directory or beside the input. -/
def outputPath (input explicit directory : String) (kind : FileKind) : String :=
  if explicit ≠ "" then explicit
  else if kind = .null then ""
  else Path.join (if directory = "" then Path.dir input else directory)
    (Path.stem input ++ kind.fileEnding)

/-- When to show the progress view. -/
inductive Display where
  | auto | on | off
  deriving DecidableEq, Repr

namespace Display

/-- The name of a mode. -/
def name : Display → String
  | auto => "auto"
  | on => "on"
  | off => "off"

/-- A mode as a flag spells it. -/
def ofFlag? (s : String) : Option Display :=
  match Text.lower (Text.trim s) with
  | "" | "auto" => some auto
  | "on" => some on
  | "off" => some off
  | _ => none

/-- The wording when a flag is no mode. -/
def badFlagMessage (s : String) : String :=
  "invalid --ui value " ++ Text.quote s ++ " (expected auto|on|off)"

/-- Whether the view is shown; the automatic mode shows it on a terminal. -/
def isShown (d : Display) (terminal : Bool) : Bool :=
  match d with
  | auto => terminal
  | on => true
  | off => false

end Display

/-- Whether to colour the output, as a flag says it; none if the flag is not understood. The
automatic mode colours on a terminal. -/
def coloursOf? (terminal : Bool) (s : String) : Option Bool :=
  match Text.lower s with
  | "" | "auto" => some terminal
  | "on" => some true
  | "off" => some false
  | _ => none

/-- The files that profiles of the run itself go to; an empty path asks for none. -/
structure ProfilePaths where
  /-- Where the time goes. -/
  cpu : String := ""
  /-- Where the memory goes. -/
  heap : String := ""
  /-- What the runtime does. -/
  runtime : String := ""
  deriving DecidableEq, Repr, Inhabited

/-- Whether any profile is asked for. -/
def ProfilePaths.isEnabled (p : ProfilePaths) : Bool :=
  p.cpu ≠ "" || p.heap ≠ "" || p.runtime ≠ ""

/-- The profiles that a command line asks for. -/
def ProfilePaths.ofWords (w : Words) : ProfilePaths :=
  { cpu := w.text "cpu-profile", heap := w.text "mem-profile", runtime := w.text "runtime-trace" }

/-- A trace flag that is not understood. -/
structure TraceFlagError where
  /-- The flag. -/
  flag : String
  /-- What is wrong with its value. -/
  cause : Trace.SetupError
  deriving DecidableEq, Repr

/-- The wording of a failure. -/
def TraceFlagError.message (e : TraceFlagError) : String :=
  "--" ++ e.flag ++ ": " ++ e.cause.message

/-- What is wrong with the value of a trace flag, if anything is. -/
def traceFlag {α : Type} (flag : String) : Except Trace.SetupError α → Except TraceFlagError α
  | .ok a => .ok a
  | .error cause => .error { flag, cause }

/-- The trace that a command line asks for. A path turns tracing on even if no level was given. -/
def traceRequest (w : Words) : Except TraceFlagError Trace.Request := do
  let path := w.text "trace"
  let level ← traceFlag "trace-level" (Trace.Level.parse ((w.text? "trace-level").getD "off"))
  let storage ← traceFlag "trace-mode" (Trace.Storage.parse ((w.text? "trace-mode").getD "stream"))
  return {
    level := if level = .off ∧ path ≠ "" then .phase else level
    storage
    path
    ringSize := (w.number? "trace-ring-size").getD 4096 }

end CodeEmission.Command
