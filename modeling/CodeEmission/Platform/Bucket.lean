import CodeEmission.Platform.Triple

/-!
# Buckets

Assembly conventions depend on four properties of a platform only: its architecture, its object
format, a class of operating systems and a class of environments. Platforms that agree on them
share one bucket, and with it one convention profile.
-/

namespace CodeEmission

/-- Operating systems that share assembly conventions. `openbsd` also covers Bitrig, whose
assembler has the same trouble with 64-bit data in 32-bit code. -/
inductive OSClass where
  | generic | darwin | openbsd | msvc | cygming
  deriving DecidableEq, Repr, Inhabited

/-- The name of a class of operating systems. -/
def OSClass.name : OSClass → String
  | generic => "generic"
  | darwin => "darwin"
  | openbsd => "openbsd"
  | msvc => "msvc"
  | cygming => "cygming"

/-- Environments that share assembly conventions. `x32` is the ABI with 32-bit pointers on a 64-bit
architecture. -/
inductive EnvClass where
  | standard | x32
  deriving DecidableEq, Repr, Inhabited

/-- The name of a class of environments. -/
def EnvClass.name : EnvClass → String
  | standard => "default"
  | x32 => "x32"

/-- What a convention profile depends on. -/
structure Bucket where
  /-- The instruction set. -/
  arch : Arch
  /-- The object format. -/
  format : ObjectFormat
  /-- The class of the operating system. -/
  os : OSClass
  /-- The class of the environment. -/
  env : EnvClass
  deriving DecidableEq, Repr, Inhabited

/-- A bucket as text, its parts divided by slashes. -/
def Bucket.render (b : Bucket) : String :=
  b.arch.name ++ "/" ++ b.format.name ++ "/" ++ b.os.name ++ "/" ++ b.env.name

namespace Triple

/-- The class of a platform's operating system. -/
def osClass (t : Triple) : OSClass :=
  if t.isDarwin then .darwin
  else if t.os = .openbsd || t.os = .bitrig then .openbsd
  else if t.isWindowsMSVC then .msvc
  else if t.isCygMing then .cygming
  else .generic

/-- The class of a platform's environment. -/
def envClass (t : Triple) : EnvClass :=
  if t.env = .gnux32 ∧ t.arch = .x86_64 then .x32 else .standard

/-- The bucket of a platform. -/
def bucket (t : Triple) : Bucket :=
  { arch := t.arch, format := t.objectFormat, os := t.osClass, env := t.envClass }

/-- The vendor has no say in the bucket. -/
theorem bucket_vendor (t : Triple) (vendor : String) :
    ({ t with vendor } : Triple).bucket = t.bucket := rfl

end Triple

end CodeEmission
