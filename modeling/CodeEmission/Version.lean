import CodeEmission.Text.Blank
import CodeEmission.Text.Json

/-!
# Version Information

The version of the program and of what it was built with, as a banner and as a record.
-/

namespace CodeEmission

/-- A way to write coloured text: the codes before and after it. -/
structure Colour where
  /-- What is switched on. -/
  on : String
  /-- What is switched off. -/
  off : String
  deriving DecidableEq, Repr

/-- Text in a colour, or plain when there are no colours. -/
def Colour.paint (c : Colour) (colours : Bool) (s : String) : String :=
  if colours then "\x1b[" ++ c.on ++ "m" ++ s ++ "\x1b[" ++ c.off ++ "m" else s

/-- Build information. -/
structure Version where
  /-- The version. -/
  number : String := "0.1.0-dev"
  /-- The commit, if known. -/
  commit : String := ""
  /-- The date of the build, if known. -/
  date : String := ""
  /-- The tools that built the program. -/
  toolchain : String := ""
  /-- The platform that it was built for. -/
  platform : String := ""
  deriving DecidableEq, Repr, Inhabited

namespace Version

/-- The name of the program. -/
def tool : String := "mcemit"

/-- The colours of the three components: bold yellow, green and blue. -/
def componentColours : List Colour := [⟨"33;1", "0;22"⟩, ⟨"32;1", "0;22"⟩, ⟨"34;1", "0;22"⟩]

/-- The parts of a text between its first two dots and around them, if it has two dots. -/
def threeParts? (s : List Char) : Option (List (List Char)) :=
  let a := s.takeWhile (· != '.')
  match s.drop a.length with
  | _ :: rest =>
    let b := rest.takeWhile (· != '.')
    match rest.drop b.length with
    | _ :: c => some [a, b, c]
    | [] => none
  | [] => none

/-- The version with its three components in colours. What follows a sign or a plus is no component,
and a version without three components is plain. -/
def coloured (v : Version) (colours : Bool) : String :=
  let core := v.number.toList.takeWhile fun c => c != '-' && c != '+'
  match threeParts? core with
  | some parts =>
    String.intercalate "." (List.zipWith (fun c p => c.paint colours (String.ofList p))
      componentColours parts) ++ String.ofList (v.number.toList.drop core.length)
  | none => v.number

/-- A line of the banner; one without a value is left out. -/
def bannerLine (label value : String) : String :=
  if value = "" then "" else label ++ value ++ "\n"

/-- The text of the version command. -/
def banner (v : Version) (colours : Bool) : String :=
  tool ++ " " ++ v.coloured colours ++ "\n" ++ bannerLine "commit: " v.commit ++
    bannerLine "built:  " v.date ++ "go:     " ++ v.toolchain ++ " " ++ v.platform ++ "\n"

/-- Build information without blanks around it. An empty version is a development version. -/
def current (v : Version) : Version :=
  { v with
    number := if Text.trim v.number = "" then "dev" else Text.trim v.number
    commit := Text.trim v.commit
    date := Text.trim v.date }

/-- A field that is left out when it is empty. -/
def optionalField (key value : String) : List (String × String) :=
  if value = "" then [] else [(key, Text.jsonString value)]

/-- Build information as a JSON object. -/
def json (v : Version) : String :=
  let c := v.current
  Text.jsonBlock (
    [("tool", Text.jsonString tool), ("version", Text.jsonString c.number)] ++
    optionalField "git_commit" c.commit ++ optionalField "build_date" c.date ++
    [("go", Text.jsonString c.toolchain), ("platform", Text.jsonString c.platform)]) ++ "\n"

end Version

end CodeEmission
