import CodeEmission.Files.System
import CodeEmission.Text.Blank
import CodeEmission.Text.Quoted
import CodeEmission.Toml.Shape

/-!
# The Configuration File

A configuration file is a TOML document with the sections `target`, `asm` and `emit`. It gives a
setting when it has the key in exactly this spelling; a key in another case is known to the reader
but gives nothing.

`searchUp` looks for the file in a list of directories. A directory without one is passed over, and
any other trouble ends the search.
-/

namespace CodeEmission.Command

/-- The settings that a configuration file gives. -/
structure ConfigValues where
  /-- The platform. -/
  triple? : Option String := none
  /-- The assembler dialect. -/
  dialect? : Option String := none
  /-- Whether jump tables are marked as data. -/
  markDataRegions? : Option Bool := none
  /-- The kind of output. -/
  fileKind? : Option String := none
  /-- Whether the unit is checked after each stage. -/
  verify? : Option Bool := none
  /-- How many units are emitted at a time. -/
  jobs? : Option Int64 := none
  deriving DecidableEq, Repr, Inhabited

/-- A configuration file. -/
structure ConfigFile where
  /-- Where it was found. -/
  path : String
  /-- What it gives. -/
  values : ConfigValues
  deriving DecidableEq, Repr, Inhabited

/-- Why there is no usable configuration. -/
inductive ConfigError where
  | document (path : String) (cause : Toml.ShapeError)
  | emptyTriple (path : String)
  | noJobs (path : String)
  | search (path : String) (cause : FileCause)
  deriving DecidableEq, Repr

/-- The wording of a failure. -/
def ConfigError.message : ConfigError → String
  | document path cause => path ++ ": " ++ cause.message
  | emptyTriple path => path ++ ": [target].triple is empty"
  | noJobs path => path ++ ": [emit].jobs must be positive"
  | search path cause =>
    "failed to stat " ++ Text.quote path ++ ": " ++
      FileError.message { verb := "stat", paths := [path], cause }

/-- The name of a configuration file. -/
def configFileName : String := "mcemit.toml"

/-- The shape of a configuration file. -/
def ConfigFile.shape : Toml.Shape :=
  .record [
    ("target", .record [("triple", .text)]),
    ("asm", .record [("syntax", .text), ("mark_data_regions", .boolean)]),
    ("emit", .record [("filetype", .text), ("verify", .boolean), ("jobs", .integer)])]

/-- A value of a section, if the document has the key in exactly this spelling. -/
def sectionValue? {α : Type} (get : Toml.Table → String → α) (root : Toml.Table)
    (group key : String) : Option α :=
  if root.isDefined [group, key] then some (get (root.sub group) key) else none

/-- The settings that a document gives. -/
def ConfigValues.ofTable (root : Toml.Table) : ConfigValues :=
  { triple? := sectionValue? Toml.Table.text root "target" "triple"
    dialect? := sectionValue? Toml.Table.text root "asm" "syntax"
    markDataRegions? := sectionValue? Toml.Table.boolean root "asm" "mark_data_regions"
    fileKind? := sectionValue? Toml.Table.text root "emit" "filetype"
    verify? := sectionValue? Toml.Table.boolean root "emit" "verify"
    jobs? := sectionValue? Toml.Table.integer root "emit" "jobs" }

namespace ConfigFile

/-- Look at the settings of a file. -/
def ofValues (path : String) (values : ConfigValues) : Except ConfigError ConfigFile :=
  if values.triple?.any fun s => Text.trim s = "" then .error (.emptyTriple path)
  else if values.jobs?.any fun n => n < 1 then .error (.noJobs path)
  else .ok { path, values }

/-- Read a configuration file from its text. -/
def ofText (path text : String) : Except ConfigError ConfigFile :=
  match Toml.Document.ofShape shape text with
  | .error cause => .error (.document path cause)
  | .ok d => ofValues path (.ofTable d.root)

end ConfigFile

section Search

variable {m : Type → Type} [Monad m] {Handle : Type}

/-- The configuration file of the first directory that has one. -/
def searchUp (look : String → m (Except FileCause Bool)) :
    List String → m (Except ConfigError (Option String))
  | [] => pure (.ok none)
  | directory :: above => do
    let candidate := Path.join directory configFileName
    match ← look candidate with
    | .ok _ => pure (.ok (some candidate))
    | .error .notFound => searchUp look above
    | .error cause => pure (.error (.search candidate cause))

/-- The configuration file of a directory or of the nearest directory above it that has one. -/
def findConfig (fs : FileSystem m Handle) (start : String) :
    m (Except ConfigError (Option String)) := do
  let directory ← fs.workingDirectory
  searchUp fs.isDirectory
    (Path.ancestors (Path.absolute directory (if start = "" then "." else start)))

/-- Read the configuration file at a path, or the nearest one if the path is empty. -/
def loadConfig (fs : FileSystem m Handle) (path : String) :
    ExceptT ConfigError m (Option ConfigFile) := do
  let found? ← if path = "" then ExceptT.mk (findConfig fs ".") else pure (some path)
  match found? with
  | none => return none
  | some path =>
    match ← ExceptT.lift (fs.read path) with
    | .error _ => throw (.document path .malformed)
    | .ok bytes =>
      let file ← ExceptT.mk (pure (ConfigFile.ofText path (Text.textOfBytes bytes)))
      return some file

end Search

end CodeEmission.Command
