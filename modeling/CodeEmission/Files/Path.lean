/-!
# Paths

Slash-separated paths as texts. `Path.clean` gives the shortest equivalent path by rules on the text
alone: repeated slashes and `.` components go, and `..` removes the component before it, except at
the start of a relative path. `Path.dir`, `Path.base` and `Path.join` follow from it.

`Path.leading` and `Path.ancestors` list the directories on the way to a path, the first from the
outside in and the second from the inside out.
-/

namespace CodeEmission.Path

/-- The components of a path, empty ones included. -/
def pieces (path : String) : List String :=
  (path.toList.splitOn '/').map String.ofList

/-- Whether a path starts at the root. -/
def isRooted (path : String) : Bool :=
  path.toList.head? = some '/'

/-- Add one component to the kept ones, which stand in reverse order. -/
def push (rooted : Bool) (kept : List String) (piece : String) : List String :=
  if piece = "" ∨ piece = "." then kept
  else if piece = ".." then
    match kept with
    | [] => if rooted then [] else [".."]
    | last :: before => if last = ".." then ".." :: last :: before else before
  else piece :: kept

/-- The shortest path equivalent to the given one. -/
def clean (path : String) : String :=
  let rooted := isRooted path
  let body := String.intercalate "/" ((pieces path).foldl (push rooted) []).reverse
  if rooted then "/" ++ body else if body = "" then "." else body

/-- Everything before the last component. -/
def dir (path : String) : String :=
  clean (String.ofList (path.toList.reverse.dropWhile (· != '/')).reverse)

/-- The last component. A path of slashes gives a slash, the empty path a dot. -/
def base (path : String) : String :=
  if path = "" then "."
  else
    let trimmed := (path.toList.reverse.dropWhile (· == '/'))
    if trimmed.isEmpty then "/"
    else String.ofList (trimmed.takeWhile (· != '/')).reverse

/-- Two paths one after the other, cleaned. An empty one is left out. -/
def join (a b : String) : String :=
  if a = "" then (if b = "" then "" else clean b)
  else if b = "" then clean a
  else clean (a ++ "/" ++ b)

/-- The last component up to its first dot, unless it starts with that dot. -/
def stem (path : String) : String :=
  let name := base path
  let front := name.toList.takeWhile (· != '.')
  if front.isEmpty then name else String.ofList front

/-- A path without `.` and `..` from the root, where it starts at a directory. -/
def absolute (directory path : String) : String :=
  if isRooted path then clean path else join directory path

/-- The leading parts of a path and the path itself, shortest first: `a`, `a/b`, `a/b/c`. -/
def leading (path : String) : List String :=
  let all := pieces path
  ((List.range all.length).map fun k => String.intercalate "/" (all.take (k + 1))).filter (· ≠ "")

/-- A path from the root and the directories above it, the root last. -/
def ancestors (path : String) : List String :=
  ((leading path).filter (· ≠ "/")).reverse ++ ["/"]

end CodeEmission.Path
