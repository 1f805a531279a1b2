import CodeEmission.Text.Blank
import CodeEmission.Text.LowerCase

/-!
# Platform Triples

A platform is named `arch-vendor-os-env`. Reading such a name never fails on an unknown word: a
component that is not recognised becomes `unknown`, and only the empty name is refused.

Names are compared without regard to case. An operating system may carry a version made of digits,
dots and underscores (`darwin13.1.0`), which is dropped; `windows` is another word for `win32`, and
every word that starts with `macos` but not with `macosx` is taken for `macosx`.

A name of two components is `arch-os`. With three or more the second one is the vendor, except in
`arch-os-env`: there the second word is an operating system and the third one is not.
-/

namespace CodeEmission

/-- The instruction set of a platform. -/
inductive Arch where
  | unknown | x86 | x86_64 | arm | aarch64 | riscv64
  deriving DecidableEq, Repr, Inhabited

/-- The operating system of a platform. -/
inductive OS where
  | unknown | darwin | macosx | ios | linux | freebsd | netbsd | openbsd | bitrig | solaris
  | win32 | mingw32 | cygwin | none
  deriving DecidableEq, Repr, Inhabited

/-- The ABI variant of a platform. `unassigned` is a variant that was given but has no name: it is
written out as `unknown`, while `unknown` itself is left out of a triple's text. -/
inductive Environment where
  | unknown | gnu | gnux32 | musl | android | eabi | msvc | itanium | cygnus | unassigned
  deriving DecidableEq, Repr, Inhabited

/-- The family of object files that a platform uses. -/
inductive ObjectFormat where
  | unspecified | elf | macho | coff
  deriving DecidableEq, Repr, Inhabited

namespace Arch

/-- The canonical name of an architecture. -/
def name : Arch → String
  | unknown => "unknown"
  | x86 => "i386"
  | x86_64 => "x86_64"
  | arm => "arm"
  | aarch64 => "aarch64"
  | riscv64 => "riscv64"

/-- The architecture with a given name or alias. -/
def ofName (word : String) : Arch :=
  match Text.lower word with
  | "i386" | "i486" | "i586" | "i686" | "x86" => x86
  | "x86_64" | "amd64" => x86_64
  | "arm" | "armv7" | "thumb" => arm
  | "aarch64" | "arm64" => aarch64
  | "riscv64" => riscv64
  | _ => unknown

end Arch

namespace OS

/-- The canonical name of an operating system. -/
def name : OS → String
  | unknown => "unknown"
  | darwin => "darwin"
  | macosx => "macosx"
  | ios => "ios"
  | linux => "linux"
  | freebsd => "freebsd"
  | netbsd => "netbsd"
  | openbsd => "openbsd"
  | bitrig => "bitrig"
  | solaris => "solaris"
  | win32 => "win32"
  | mingw32 => "mingw32"
  | cygwin => "cygwin"
  | none => "none"

/-- Every operating system that has a name of its own. -/
def known : List OS :=
  [darwin, macosx, ios, linux, freebsd, netbsd, openbsd, bitrig, solaris, win32, mingw32, cygwin,
    none]

/-- A character of a version number. -/
def isVersionChar (c : Char) : Bool :=
  ('0' ≤ c && c ≤ '9') || c == '.' || c == '_'

/-- Whether a word is the given name followed by a version, which may be empty. -/
def isVersioned (base word : List Char) : Bool :=
  base.isPrefixOf word && (word.drop base.length).all isVersionChar

/-- The operating system that a word names. -/
def ofName (word : String) : OS :=
  let chars := (Text.lower word).toList
  if chars = "windows".toList then win32
  else if "macos".toList.isPrefixOf chars && !"macosx".toList.isPrefixOf chars then macosx
  else (known.find? fun os => isVersioned os.name.toList chars).getD unknown

end OS

namespace Environment

/-- The canonical name of an environment. -/
def name : Environment → String
  | unknown => "unknown"
  | gnu => "gnu"
  | gnux32 => "gnux32"
  | musl => "musl"
  | android => "android"
  | eabi => "eabi"
  | msvc => "msvc"
  | itanium => "itanium"
  | cygnus => "cygnus"
  | unassigned => "unknown"

/-- The environment that a word names. -/
def ofName (word : String) : Environment :=
  match Text.lower word with
  | "gnu" => gnu
  | "gnux32" => gnux32
  | "musl" => musl
  | "android" => android
  | "eabi" => eabi
  | "msvc" => msvc
  | "itanium" => itanium
  | "cygnus" => cygnus
  | _ => unknown

end Environment

/-- The name of an object format. -/
def ObjectFormat.name : ObjectFormat → String
  | unspecified => "unknown"
  | elf => "elf"
  | macho => "macho"
  | coff => "coff"

/-- A platform. -/
structure Triple where
  /-- The instruction set. -/
  arch : Arch
  /-- The vendor, in the spelling it was given. -/
  vendor : String
  /-- The operating system. -/
  os : OS
  /-- The ABI variant. -/
  env : Environment
  deriving DecidableEq, Repr, Inhabited

/-- Why a platform name was refused. -/
inductive TripleError where
  | empty
  deriving DecidableEq, Repr

/-- The wording of a refusal. -/
def TripleError.message : TripleError → String
  | empty => "empty platform identifier"

namespace Triple

/-- The components after the architecture, split into the vendor, if one is given, and the rest. -/
def splitVendor (rest : List String) : Option String × List String :=
  match rest with
  | a :: b :: more =>
    if more = [] ∧ OS.ofName a ≠ .unknown ∧ OS.ofName b = .unknown then (none, rest)
    else (some a, b :: more)
  | _ => (none, rest)

/-- The triple that a list of components names. -/
def ofComponents (arch : String) (rest : List String) : Triple :=
  let (vendor, tail) := splitVendor rest
  { arch := Arch.ofName arch
    vendor := match vendor with
      | none | some "" => "unknown"
      | some v => v
    os := match tail with
      | [] => .unknown
      | os :: _ => OS.ofName os
    env := match tail with
      | _ :: env :: _ => Environment.ofName env
      | _ => .unknown }

/-- The components of a platform name. -/
def components (s : String) : List String :=
  (s.toList.splitOn '-').map String.ofList

/-- Read a platform name. -/
def parse (s : String) : Except TripleError Triple :=
  let s := Text.trim s
  if s = "" then .error .empty
  else match components s with
    | [] => .error .empty
    | arch :: rest => .ok (ofComponents arch rest)

/-- The canonical name of a platform. An unknown environment is left out. -/
def render (t : Triple) : String :=
  t.arch.name ++ "-" ++ (if t.vendor = "" then "unknown" else t.vendor) ++ "-" ++ t.os.name ++
    (if t.env = .unknown then "" else "-" ++ t.env.name)

/-- Whether the registers are 64 bits wide. -/
def is64Bit (t : Triple) : Bool :=
  t.arch = .x86_64 || t.arch = .aarch64 || t.arch = .riscv64

/-- Whether the operating system is one of the Darwin family. -/
def isDarwin (t : Triple) : Bool :=
  t.os = .darwin || t.os = .macosx || t.os = .ios

/-- Whether the platform is Windows with the native tool chain. -/
def isWindowsMSVC (t : Triple) : Bool :=
  t.os = .win32 && (t.env = .unknown || t.env = .msvc || t.env = .itanium)

/-- Whether the platform is Cygwin or MinGW. -/
def isCygMing (t : Triple) : Bool :=
  t.os = .cygwin || t.os = .mingw32 || (t.os = .win32 && (t.env = .gnu || t.env = .cygnus))

/-- The object files of the platform. -/
def objectFormat (t : Triple) : ObjectFormat :=
  if t.isDarwin then .macho
  else if t.isWindowsMSVC || t.isCygMing then .coff
  else .elf

/-- The platform that this program runs on and emits for unless told otherwise. -/
def host : Triple :=
  { arch := .x86_64, vendor := "unknown", os := .linux, env := .gnu }

/-- A platform is never both native Windows and Cygwin or MinGW. -/
theorem not_isCygMing_of_isWindowsMSVC {t : Triple} (h : t.isWindowsMSVC = true) :
    t.isCygMing = false := by
  obtain ⟨arch, vendor, os, env⟩ := t
  cases os <;> cases env <;> simp_all [isWindowsMSVC, isCygMing]

end Triple

end CodeEmission
