import CodeEmission.Command.Session

/-!
# The Program

The commands, and the program that chooses one of them for a command line. `run` is the whole
program: from a file system, the surroundings and the words of a command line to what was said, how
it ended and, in the monad of the file system, what became of the files.

`emit` settles everything that can be settled before it reads an input, and reads all inputs before
it emits the first unit.
-/

namespace CodeEmission.Command

/-- The targets that are known. -/
def knownTargets : Registry Unit := Registry.standard ()

/-- The profile of a platform. -/
def profileFor (c : Conventions) (triple : String) : Except ResolveError Profile :=
  ((Resolver.ofRegistry knownTargets c).profile triple).map fun r => r.1.profile

/-- The ways to print what a command shows. -/
inductive PrintStyle where
  | pretty | json
  deriving DecidableEq, Repr

/-- A way to print as a flag spells it. -/
def PrintStyle.ofFlag (w : Words) : Except CommandError PrintStyle :=
  let value := (w.text? "format").getD "pretty"
  match Text.lower value with
  | "pretty" => .ok .pretty
  | "json" => .ok .json
  | _ => .error (.format value)

/-- The colour of the names in a profile. -/
def keyColour : Colour := ⟨"36", "0"⟩

/-- A profile in two columns. -/
def profileTable (colours : Bool) (triple : String) (rows : List (String × String)) : String :=
  let width := (rows.map fun r => r.1.length).foldl max 0
  "profile for " ++ triple ++ "\n" ++ String.join (rows.map fun (key, value) =>
    "  " ++ keyColour.paint colours (Text.padRight width key) ++ "  " ++ value ++ "\n")

/-- A profile as a JSON object with its keys in order. -/
def profileObject (rows : List (String × String)) : String :=
  Text.jsonBlock ((rows.mergeSort fun a b => decide (a.1 ≤ b.1)).map fun (key, value) =>
    (key, Text.jsonString value)) ++ "\n"

/-- What is printed when help is asked for. -/
def helpText : String :=
  "Emit x86 assembly and objects from machine-code units\n\n" ++
    "Usage:\n  mcemit emit [flags] unit.toml...\n  mcemit targets\n" ++
    "  mcemit profile <triple> [--format pretty|json]\n" ++
    "  mcemit version [--format pretty|json]\n"

section

variable {m : Type → Type} [Monad m] {Handle : Type}

/-- Read the inputs as jobs. -/
def loadJobs (fs : FileSystem m Handle) (output directory : String) (kind : FileKind)
    (inputs : List String) : Run m (List Job) :=
  inputs.mapM fun path => do
    let unit ← match ← Run.outside (fs.read path) with
      | .ok bytes => Run.lift (.input path) (CodeUnit.load path (Text.textOfBytes bytes))
      | .error _ => throw (.input path .malformed)
    return { input := path, output := outputPath path output directory kind, unit }

/-- Run the jobs inside a span of their own. -/
def traceJobs (fs : FileSystem m Handle) (p : Profile) (s : Settings) (jobs : List Job) :
    Run m (List JobResult) := do
  let (span, recorder) := (← get).recorder.openSpan .driver "emit" 0
  let (span, recorder) := recorder.annotate span "target" s.triple
  let (span, recorder) := recorder.annotate span "units" (Nat.repr jobs.length)
  let results ← Run.outside (runJobs fs .accepting p s.options s.jobs.toInt.toNat [] jobs)
  let recorder := results.foldl (fun recorder r => Trace.play span.id r.acts recorder) recorder
  let failed := results.any fun r => r.failure?.isSome
  let recorder := recorder.closeSpan span (if failed then "failed" else "ok")
  modify fun session => { session with recorder }
  return results

/-- Tell what became of the jobs. -/
def reportJobs (w : Words) (o : Options) (results : List JobResult) : Run m Unit := do
  Run.printBytes (results.flatMap JobResult.printed)
  if w.isOn "timings" then
    Run.complain (String.join (results.map fun r => r.timings.unitSummary r.job.unit.name))
  if !w.isOn "quiet" then
    Run.print (String.join (results.map (JobResult.notice o)))

/-- Settle what to do, read the inputs and emit their units. -/
def emitUnits (fs : FileSystem m Handle) (around : Surroundings) (w : Words) : Run m Unit := do
  let file? ← Run.attempt .config (loadConfig fs (w.text "config"))
  let s ← Run.lift .settings (Settings.resolve around.processors file? (.ofWords w))
  let output := w.text "output"
  let directory := w.text "out-dir"
  let display := (w.text? "ui").getD "auto"
  if (Display.ofFlag? display).isNone then throw (.display display)
  if output ≠ "" ∧ 1 < w.arguments.length then throw (.manyInputs w.arguments.length)
  if output ≠ "" ∧ directory ≠ "" then throw .twoOutputs
  let p ← Run.lift .target (profileFor s.conventions s.triple)
  -- a request that no driver accepts is refused before any input is read
  let _ ← Run.lift .options ((Driver.standard p).configure s.options)
  let jobs ← loadJobs fs output directory s.options.fileKind w.arguments
  let results ← traceJobs fs p s jobs
  reportJobs w s.options results
  -- of several failures the first, in the order of the inputs, is the command's
  match results.findSome? fun r => r.failure?.map fun f => (r.job.input, f) with
  | some (path, failure) => throw (.job path failure)
  | none => pure ()

/-- Emit units. -/
def emit (fs : FileSystem m Handle) (around : Surroundings) (w : Words) : Run m Unit := do
  let q ← Run.lift .traceFlag (traceRequest w)
  withTracing fs around.now q
    (withProfiles fs (.ofWords w) (emitUnits fs around w))

/-- List the patterns of the known targets. -/
def listTargets : Run m Unit :=
  Run.print (String.join (knownTargets.patterns.map (· ++ "\n")))

/-- Show the profile of a platform. -/
def showProfile (fs : FileSystem m Handle) (colours : Bool) (w : Words) (triple : String) :
    Run m Unit := do
  let file? ← Run.attempt .config (loadConfig fs (w.text "config"))
  let c ← Run.lift .settings (resolveConventions file? (.ofWords w))
  let p ← Run.lift .target (profileFor c triple)
  match ← Run.lift id (PrintStyle.ofFlag w) with
  | .pretty => Run.print (profileTable colours triple p.settings)
  | .json => Run.print (profileObject p.settings)

/-- Show the version. -/
def showVersion (v : Version) (colours : Bool) (w : Words) : Run m Unit := do
  match ← Run.lift id (PrintStyle.ofFlag w) with
  | .pretty => Run.print (v.banner colours)
  | .json => Run.print v.json

/-- Carry out a command whose flags have been read. -/
def perform (fs : FileSystem m Handle) (around : Surroundings) (verb : Verb) (w : Words) :
    Run m Unit := do
  if w.isOn "help" then Run.print helpText
  else if w.isOn "version" then
    Run.print (Version.tool ++ " version " ++ around.version.number ++ "\n")
  else if verb ∈ [.root, .help, .completion] then Run.print helpText
  else
    Run.lift .usage (checkArguments verb w.arguments)
    let colour := (w.text? "color").getD "auto"
    match coloursOf? around.terminal colour with
    | none => throw (.colour colour)
    | some colours =>
      match verb, w.arguments with
      | .emit, _ => emit fs around w
      | .targets, _ => listTargets
      | .profile, triple :: _ => showProfile fs colours w triple
      | .version, _ => showVersion around.version colours w
      | _, _ => pure ()

/-- Carry out a command line. -/
def performLine (fs : FileSystem m Handle) (around : Surroundings) (words : List String) :
    Run m Unit := do
  let (verb, rest) ← Run.lift .usage (chooseVerb words)
  let w ← Run.lift .flags (Words.parse verb.flags rest)
  perform fs around verb w

/-- How the program ended. -/
structure Outcome where
  /-- Standard output. -/
  output : List UInt8
  /-- The error output of the command. -/
  errors : String
  /-- What the trace wrote to the error output of the process. -/
  traced : String
  /-- Why it failed, if it did. -/
  failure? : Option CommandError
  deriving Repr

/-- What is said of a failure. A word that is no command comes with a hint. -/
def failureText (e : CommandError) : String :=
  "Error: " ++ e.message ++ "\n" ++
    match e with
    | .usage (.unknownCommand _) => "Run '" ++ Version.tool ++ " --help' for usage.\n"
    | _ => ""

/-- The program. -/
def run (fs : FileSystem m Handle) (around : Surroundings) (words : List String) : m Outcome := do
  let (result, session) ← ((performLine fs around words).run).run {}
  let failure? := match result with
    | .ok () => none
    | .error e => some e
  return {
    output := session.output
    errors := session.errors ++ (failure?.map failureText).getD ""
    traced := session.traced
    failure? }

end

/-- The exit code of the program. -/
def Outcome.exitCode (o : Outcome) : UInt32 :=
  if o.failure?.isSome then 1 else 0

end CodeEmission.Command
