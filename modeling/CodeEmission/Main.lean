import CodeEmission.Command.Program
import Std.Time

/-!
# The Program on the Files of the Machine

The file system of the machine as a `FileSystem`, and the entry point. What the program does is
`Command.run`; here its words, its surroundings and its files come from the machine, and its output
goes there.
-/

namespace CodeEmission

/-- The cause behind a failure that the machine reports. -/
def FileCause.ofFailure (failure : IO.Error) : FileCause :=
  match failure with
  | .noFileOrDirectory _ _ _ => .notFound
  | .alreadyExists _ _ _ => .occupied
  | .inappropriateType _ code details =>
    if code = 21 then .isDirectory else if code = 20 then .notDirectory else .other details
  | .unsatisfiedConstraints code details => if code = 39 then .notEmpty else .other details
  | .invalidArgument _ code details =>
    if code = 36 then .nameTooLong else if code = 22 then .invalid else .other details
  | .resourceBusy code details => if code = 16 then .busy else .other details
  | _ => .other (toString failure)

/-- Do something on the machine and keep the cause of a failure. -/
def guarded {α : Type} (act : IO α) : IO (Except FileCause α) := do
  try return .ok (← act)
  catch failure => return .error (.ofFailure failure)

/-- Whether a path leads to a directory of the machine. -/
def leadsToDirectory (path : String) : IO (Except FileCause Bool) := do
  if path = "" then return .error .notFound
  guarded do
    let here ← IO.currentDir
    let found ← (here / path).metadata
    return found.type == .dir

/-- The files of the machine. Files are closed when nothing refers to them any more; until then
closing one makes sure that its content is written. -/
def machineFiles : FileSystem IO IO.FS.Handle where
  workingDirectory := do return (← IO.currentDir).toString
  isDirectory := leadsToDirectory
  read path := guarded do return (← IO.FS.readBinFile path).toList
  create path := guarded (IO.FS.Handle.mk path .write)
  createNew path := guarded (IO.FS.Handle.mk path .writeNew)
  freshPath directory := do
    let n ← IO.rand 0 (UInt32.size - 1)
    return (if directory = "/" then "" else directory) ++ "/.mcemit-" ++ Nat.repr n
  write handle data := guarded (handle.write ⟨data.toArray⟩)
  close handle := guarded handle.flush
  makeDirectory path := guarded (IO.FS.createDir path)
  rename source target := do
    match ← leadsToDirectory target with
    | .ok true => return .error .occupied
    | _ => guarded (IO.FS.rename source target)
  remove path := do
    match ← leadsToDirectory path with
    | .ok true => guarded (IO.FS.removeDir path)
    | _ => guarded (IO.FS.removeFile path)

end CodeEmission

open CodeEmission in
/-- Run the program. -/
def main (words : List String) : IO UInt32 := do
  let now ← Std.Time.Timestamp.now
  let stdout ← IO.getStdout
  let outcome ← Command.run machineFiles
    { terminal := ← stdout.isTty, now := now.toNanosecondsSinceUnixEpoch.val } words
  stdout.write ⟨outcome.output.toArray⟩
  stdout.flush
  IO.eprint (outcome.traced ++ outcome.errors)
  return outcome.exitCode
