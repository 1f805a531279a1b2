import CodeEmission.Files.Path

/-!
# File Systems

The operations on files that a command needs, as a record over a monad. The same command then runs
on the files of a machine and on the tree of `CodeEmission.Tree`. An operation has its effect or
gives the cause of its failure.

`FileSystem.writeAtomic` writes a file in one step as far as others can see: it fills a temporary
file in the same directory and then moves that onto the path. When a step fails it removes the
temporary file and leaves the path alone.
-/

namespace CodeEmission

/-- Why an operation on a file failed. -/
inductive FileCause where
  | notFound | notDirectory | isDirectory | occupied | notEmpty | nameTooLong | invalid | busy
  | other (text : String)
  deriving DecidableEq, Repr, Inhabited

/-- The wording of a cause. -/
def FileCause.text : FileCause → String
  | notFound => "no such file or directory"
  | notDirectory => "not a directory"
  | isDirectory => "is a directory"
  | occupied => "file exists"
  | notEmpty => "directory not empty"
  | nameTooLong => "file name too long"
  | invalid => "invalid argument"
  | busy => "device or resource busy"
  | other text => text

/-- A failed operation: what was done, to which paths, and why it failed. -/
structure FileError where
  /-- What was done. -/
  verb : String
  /-- The paths, as they were given. -/
  paths : List String
  /-- Why it failed. -/
  cause : FileCause
  deriving DecidableEq, Repr

/-- The wording of a failure. -/
def FileError.message (e : FileError) : String :=
  e.verb ++ " " ++ String.intercalate " " e.paths ++ ": " ++ e.cause.text

/-- The wording of several failures, one a line. -/
def FileError.messages (es : List FileError) : String :=
  String.intercalate "\n" (es.map message)

/-- The operations of a file system. Relative paths start at its working directory. -/
structure FileSystem (m : Type → Type) (Handle : Type) where
  /-- The working directory, from the root. -/
  workingDirectory : m String
  /-- Whether a path leads to a directory, rather than to a file. -/
  isDirectory : String → m (Except FileCause Bool)
  /-- The content of a file. -/
  read : String → m (Except FileCause (List UInt8))
  /-- Make an empty file, or empty the one that is there, and open it. -/
  create : String → m (Except FileCause Handle)
  /-- Make an empty file where nothing is yet, and open it. -/
  createNew : String → m (Except FileCause Handle)
  /-- A path for a new file in a directory. -/
  freshPath : String → m String
  /-- Add to the end of an open file. -/
  write : Handle → List UInt8 → m (Except FileCause Unit)
  /-- Close an open file. -/
  close : Handle → m (Except FileCause Unit)
  /-- Make a directory in a directory that exists. -/
  makeDirectory : String → m (Except FileCause Unit)
  /-- Move a file onto a path, in place of the file that is there. -/
  rename : String → String → m (Except FileCause Unit)
  /-- Remove a file or an empty directory. -/
  remove : String → m (Except FileCause Unit)

namespace FileSystem

variable {m : Type → Type} [Monad m] {Handle : Type}

/-- The outcome of an operation, with what was done to which paths if it failed. -/
def attempt {α : Type} (verb : String) (paths : List String) (act : m (Except FileCause α)) :
    ExceptT FileError m α :=
  ExceptT.mk do
    match ← act with
    | .ok a => pure (.ok a)
    | .error cause => pure (.error { verb, paths, cause })

/-- Make each of the given directories that does not exist, the outermost first. -/
def makeDirectories (fs : FileSystem m Handle) : List String → ExceptT FileError m Unit
  | [] => pure ()
  | path :: inner => do
    match ← ExceptT.lift (fs.isDirectory path) with
    | .ok true => fs.makeDirectories inner
    | .ok false => throw { verb := "mkdir", paths := [path], cause := .notDirectory }
    | .error _ =>
      attempt "mkdir" [path] (fs.makeDirectory path)
      fs.makeDirectories inner

/-- Remove what a path leads to, if it leads to anything. -/
def removeIfExists (fs : FileSystem m Handle) (path : String) : ExceptT FileError m Unit :=
  ExceptT.mk do
    match ← fs.remove path with
    | .ok () | .error .notFound => pure (.ok ())
    | .error cause => pure (.error { verb := "remove", paths := [path], cause })

/-- Fill an open temporary file and move it onto a path. The file is closed also when it could not
be filled. -/
def fillAndMove (fs : FileSystem m Handle) (handle : Handle) (temporary path : String)
    (data : List UInt8) : ExceptT FileError m Unit := do
  match ← ExceptT.lift (fs.write handle data) with
  | .ok () => pure ()
  | .error cause =>
    let _ ← ExceptT.lift (fs.close handle)
    throw { verb := "write", paths := [temporary], cause }
  attempt "close" [temporary] (fs.close handle)
  attempt "rename" [temporary, path] (fs.rename temporary path)

/-- Write a file by way of a temporary one in the same directory, which is made if need be. After a
failure the temporary file is removed; should that fail too, the second failure is told as well. -/
def writeAtomic (fs : FileSystem m Handle) (path : String) (data : List UInt8) :
    m (Except (List FileError) Unit) := do
  let directory := Path.dir path
  match ← (fs.makeDirectories (Path.leading directory)).run with
  | .error e => return .error [e]
  | .ok () =>
    let temporary ← fs.freshPath directory
    match ← (attempt "open" [temporary] (fs.createNew temporary)).run with
    | .error e => return .error [e]
    | .ok handle =>
      match ← (fs.fillAndMove handle temporary path data).run with
      | .ok () => return .ok ()
      | .error e =>
        match ← (fs.removeIfExists temporary).run with
        | .ok () => return .error [e]
        | .error e' => return .error [e, e']

end FileSystem

end CodeEmission
