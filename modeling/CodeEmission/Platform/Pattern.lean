import CodeEmission.Platform.Triple
import CodeEmission.Text.Quoted

/-!
# Target Patterns

A pattern `arch[-vendor[-os[-env]]]` stands for a set of platforms. The architecture is required; a
component that is left out or is `*` allows anything. The word `darwin` stands for the whole Darwin
family. `Pattern.canonical` spells a pattern with normalised names and every wildcard, and
`Pattern.specificity` ranks the patterns that match one platform.
-/

namespace CodeEmission

/-- A set of platforms. An empty vendor, an unknown operating system and an unknown environment
allow anything. -/
structure Pattern where
  /-- The architecture. -/
  arch : Arch
  /-- The vendor, or the empty text for any. -/
  vendor : String
  /-- The operating system, or `unknown` for any. -/
  os : OS
  /-- The environment, or `unknown` for any. -/
  env : Environment
  /-- The text the pattern was read from. -/
  text : String
  deriving DecidableEq, Repr, Inhabited

/-- Why a pattern was refused. Every cause holds the text of the whole pattern. -/
inductive PatternError where
  | tooManyComponents (text : String)
  | unknownArch (text component : String)
  | unknownOS (text component : String)
  | unknownEnvironment (text component : String)
  deriving DecidableEq, Repr

/-- The wording of a refusal. -/
def PatternError.message : PatternError → String
  | tooManyComponents text => "pattern " ++ Text.quote text ++ ": too many components"
  | unknownArch text c =>
    "pattern " ++ Text.quote text ++ ": unknown architecture " ++ Text.quote c
  | unknownOS text c => "pattern " ++ Text.quote text ++ ": unknown OS " ++ Text.quote c
  | unknownEnvironment text c =>
    "pattern " ++ Text.quote text ++ ": unknown environment " ++ Text.quote c

namespace Pattern

/-- A component that constrains something: present and no wildcard. -/
def given? (parts : List String) (i : Nat) : Option String :=
  match parts[i]? with
  | some "*" => none
  | part => part

/-- Read a pattern. -/
def parse (s : String) : Except PatternError Pattern := do
  let parts := Triple.components (Text.trim s)
  if 4 < parts.length then throw (.tooManyComponents s)
  let archName := (parts[0]?).getD ""
  let arch := Arch.ofName archName
  if arch = .unknown then throw (.unknownArch s archName)
  let os ← match given? parts 2 with
    | none => pure OS.unknown
    | some c => if OS.ofName c = .unknown then throw (.unknownOS s c) else pure (OS.ofName c)
  let env ← match given? parts 3 with
    | none => pure Environment.unknown
    | some c =>
      if Environment.ofName c = .unknown then throw (.unknownEnvironment s c)
      else pure (Environment.ofName c)
  return { arch, vendor := (given? parts 1).getD "", os, env, text := s }

/-- The pattern with normalised names and every wildcard written out. -/
def canonical (p : Pattern) : String :=
  p.arch.name ++ "-" ++
    (if p.vendor = "" then "*" else p.vendor) ++ "-" ++
    (if p.os = .unknown then "*" else p.os.name) ++ "-" ++
    (if p.env = .unknown then "*" else p.env.name)

/-- Whether a platform's operating system is one that the pattern allows. -/
def allowsOS (p : Pattern) (t : Triple) : Bool :=
  match p.os with
  | .unknown => true
  | .darwin => t.isDarwin
  | os => os = t.os

/-- Whether a platform is one of the pattern's. -/
def matchesTriple (p : Pattern) (t : Triple) : Bool :=
  p.arch = t.arch && (p.vendor = "" || p.vendor = t.vendor) && p.allowsOS t &&
    (p.env = .unknown || p.env = t.env)

/-- The rank of a pattern among those that match a platform; the highest wins. A vendor does not
count. -/
def specificity (p : Pattern) : Nat :=
  4 + (if p.os = .unknown then 0 else 2) + (if p.env = .unknown then 0 else 1)

/-- The rank of a pattern lies between four and seven. -/
theorem specificity_le (p : Pattern) : 4 ≤ p.specificity ∧ p.specificity ≤ 7 := by
  simp only [specificity]
  split <;> split <;> omega

end Pattern

end CodeEmission
