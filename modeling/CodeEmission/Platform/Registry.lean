import CodeEmission.Platform.Pattern

/-!
# Target Registries

A registry holds patterns in the order of their registration, each with what the caller wants to
find for it. Two patterns with the same canonical form cannot both be registered. A look-up gives
the entry of highest specificity among those that match, and the earliest of several such.
-/

namespace CodeEmission

/-- One registration. -/
structure Registration (α : Type) where
  /-- The platforms it is for. -/
  pattern : Pattern
  /-- What is found for them. -/
  value : α
  deriving Repr, Inhabited

/-- Registrations in the order they were made. -/
structure Registry (α : Type) where
  /-- The entries, the earliest first. -/
  entries : List (Registration α) := []
  deriving Repr, Inhabited

/-- Why a registration was refused. -/
inductive RegistrationError where
  | badPattern (cause : PatternError)
  | noValue (text : String)
  | duplicate (canonical : String)
  deriving DecidableEq, Repr

/-- The wording of a refusal. -/
def RegistrationError.message : RegistrationError → String
  | badPattern cause => cause.message
  | noValue text => "pattern " ++ Text.quote text ++ ": nil factory"
  | duplicate canonical => "duplicate target registration: " ++ canonical

namespace Registry

variable {α : Type}

/-- Whether a pattern with the given canonical form is registered. -/
def isRegistered (r : Registry α) (canonical : String) : Bool :=
  r.entries.any fun e => e.pattern.canonical = canonical

/-- Register a value under a pattern. A refused registration changes nothing. -/
def register (r : Registry α) (text : String) (value : Option α) :
    Except RegistrationError (Registry α) :=
  match Pattern.parse text with
  | .error cause => .error (.badPattern cause)
  | .ok pattern =>
    match value with
    | none => .error (.noValue text)
    | some value =>
      if r.isRegistered pattern.canonical then .error (.duplicate pattern.canonical)
      else .ok { entries := r.entries ++ [{ pattern, value }] }

/-- The better of two candidates: the second one only if it is strictly more specific. -/
def better (best : Option (Registration α)) (e : Registration α) : Option (Registration α) :=
  match best with
  | none => some e
  | some b => if b.pattern.specificity < e.pattern.specificity then some e else some b

/-- The most specific registration that matches a platform; the earliest of equals. -/
def lookup (r : Registry α) (t : Triple) : Option (Registration α) :=
  (r.entries.filter fun e => e.pattern.matchesTriple t).foldl better none

/-- The texts of all registered patterns, sorted. -/
def patterns (r : Registry α) : List String :=
  (r.entries.map fun e => e.pattern.text).mergeSort (fun a b => decide (a ≤ b))

/-- The patterns of the targets that this program emits for. -/
def standardPatterns : List String :=
  ["x86", "x86_64", "x86_64-*-darwin", "x86_64-*-*-gnux32", "x86_64-*-win32-msvc",
    "x86-*-openbsd", "x86-*-bitrig"]

/-- The registry of the targets that this program emits for, all with one value. -/
def standard (value : α) : Registry α :=
  standardPatterns.foldl
    (fun r text => match r.register text (some value) with
      | .ok r => r
      | .error _ => r)
    {}

/-- A registration with a well-formed new pattern is appended. -/
theorem register_eq_ok {r : Registry α} {text : String} {value : α} {p : Pattern}
    (hp : Pattern.parse text = .ok p) (hnew : r.isRegistered p.canonical = false) :
    r.register text (some value) = .ok { entries := r.entries ++ [⟨p, value⟩] } := by
  simp [register, hp, hnew]

end Registry

end CodeEmission
