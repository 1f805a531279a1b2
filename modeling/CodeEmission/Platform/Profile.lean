import CodeEmission.Expr
import CodeEmission.Platform.Bucket
import CodeEmission.Text.Quoted

/-!
# Convention Profiles

A profile says how a platform wants its assembly text and its object sections: directives, symbol
marks, section names, alignment, pointer width and exception model. It is built from a bucket by
four steps in a fixed order, each of which adjusts the record the step before left:

* the architecture sets the pointer width, the dialect and the fill byte;
* the object format sets directives, marks, sections and the exception model;
* the operating system overrides a few of those;
* the environment narrows the pointer.

Two choices of the user enter as well: the dialect of the text and whether jump tables are bracketed
by data-region markers.
-/

namespace CodeEmission

/-- The notation of instructions. -/
inductive Dialect where
  | att | intel
  deriving DecidableEq, Repr, Inhabited

/-- Why the name of a dialect was refused. -/
structure DialectError where
  /-- The text that names no dialect. -/
  given : String
  deriving DecidableEq, Repr

/-- The wording of a refusal. -/
def DialectError.message (e : DialectError) : String :=
  "invalid assembler syntax: " ++ Text.quote e.given ++ " (expected: att|intel)"

namespace Dialect

/-- The name of a dialect. -/
def name : Dialect → String
  | att => "att"
  | intel => "intel"

/-- The dialect with a given name; no name means AT&T. -/
def parse (s : String) : Except DialectError Dialect :=
  match Text.lower (Text.trim s) with
  | "att" | "at&t" | "" => .ok att
  | "intel" => .ok intel
  | _ => .error ⟨s⟩

end Dialect

/-- How exceptions unwind. -/
inductive ExceptionModel where
  | none | dwarfCFI | win64
  deriving DecidableEq, Repr, Inhabited

/-- The name of an exception model. -/
def ExceptionModel.name : ExceptionModel → String
  | none => "none"
  | dwarfCFI => "dwarf-cfi"
  | win64 => "win64"

/-- The choices of the user that enter every profile. -/
structure Conventions where
  /-- The notation of instructions. -/
  dialect : Dialect := .att
  /-- Whether jump tables are bracketed by data-region markers, where the format has them. -/
  markDataRegions : Bool := false
  deriving DecidableEq, Repr, Inhabited

/-- The assembly conventions of a bucket. Directives hold the blanks around them; an absent
directive or section is the empty text. The defaults are those of a 32-bit target before any step
has run. -/
structure Profile where
  /-- The bucket the profile was built for. -/
  bucket : Bucket
  /-- The instruction set. -/
  arch : Arch := .unknown
  /-- The object format. -/
  format : ObjectFormat := .unspecified
  /-- The width of a pointer in bytes. -/
  pointerSize : Nat := 4
  /-- The stack slot of a callee-saved register in bytes. -/
  calleeSaveSlotSize : Nat := 4
  /-- The notation of instructions. -/
  dialect : Dialect := .att
  /-- The byte that fills gaps between functions. -/
  textFill : UInt8 := 0
  /-- What starts a comment. -/
  comment : String := "#"
  /-- What stands before the name of a symbol that the linker sees. -/
  globalMark : String := ""
  /-- What stands before the name of a symbol that only the assembler sees. -/
  privateMark : String := "L"
  /-- The directive that exports a symbol. -/
  globalDirective : String := "\t.globl\t"
  /-- The directive that makes a reference weak. -/
  weakRefDirective : String := ""
  /-- The directive that makes a definition weak. -/
  weakDefDirective : String := ""
  /-- The symbol of the current location. -/
  pcSymbol : String := "$"
  /-- Whether the assembler knows LEB128 data. -/
  hasLEB128 : Bool := false
  /-- The directive for data of one byte. -/
  data8Directive : String := "\t.byte\t"
  /-- The directive for data of two bytes. -/
  data16Directive : String := "\t.short\t"
  /-- The directive for data of four bytes. -/
  data32Directive : String := "\t.long\t"
  /-- The directive for data of eight bytes. -/
  data64Directive : String := "\t.quad\t"
  /-- The directive that aligns the location. -/
  alignDirective : String := "\t.align\t"
  /-- Whether that directive counts bytes rather than powers of two. -/
  alignInBytes : Bool := true
  /-- Whether the platform has debug information. -/
  debugInfo : Bool := false
  /-- Whether debug information uses the inline-info section. -/
  dwarfInlineInfoSection : Bool := false
  /-- How exceptions unwind. -/
  exceptions : ExceptionModel := .none
  /-- Whether jump tables are bracketed by data-region markers. -/
  dataRegions : Bool := false
  /-- The section of functions. -/
  textSection : String := ".text"
  /-- The section of data. -/
  dataSection : String := ".data"
  /-- The directive that enters the section of functions. -/
  textSectionDirective : String := "\t.text"
  /-- The directive that enters the section of data. -/
  dataSectionDirective : String := "\t.data"
  /-- The section that marks the stack as not executable. -/
  nonexecStackSection : String := ""
  deriving DecidableEq, Repr, Inhabited

/-- Why no profile could be built. -/
structure ProfileError where
  /-- The architecture without conventions. -/
  arch : Arch
  deriving DecidableEq, Repr

/-- The wording of a refusal. -/
def ProfileError.message (e : ProfileError) : String :=
  "no assembly conventions for architecture " ++ e.arch.name

/-- Whether an architecture has assembly conventions. -/
def Arch.isSupported (a : Arch) : Bool :=
  a = .x86 || a = .x86_64

namespace Profile

/-- What the architecture decides. The fill byte is the one-byte no-operation. -/
def archStep (b : Bucket) (c : Conventions) (p : Profile) : Profile :=
  { p with
    arch := b.arch
    pointerSize := if b.arch = .x86_64 then 8 else p.pointerSize
    calleeSaveSlotSize := if b.arch = .x86_64 then 8 else p.calleeSaveSlotSize
    dialect := c.dialect
    textFill := 0x90 }

/-- What the object format decides. -/
def formatStep (b : Bucket) (c : Conventions) (p : Profile) : Profile :=
  match b.format with
  | .macho =>
    { p with
      format := .macho
      comment := "##"
      globalMark := "_"
      privateMark := "L"
      weakRefDirective := "\t.weak_reference\t"
      weakDefDirective := "\t.weak_definition\t"
      pcSymbol := "."
      hasLEB128 := true
      alignDirective := "\t.p2align\t"
      alignInBytes := false
      debugInfo := true
      dwarfInlineInfoSection := true
      exceptions := .dwarfCFI
      dataRegions := c.markDataRegions
      textSection := "__TEXT,__text"
      dataSection := "__DATA,__data"
      textSectionDirective := "\t.section\t__TEXT,__text,regular,pure_instructions"
      dataSectionDirective := "\t.section\t__DATA,__data"
      data64Directive := if b.arch = .x86_64 then p.data64Directive else "" }
  | .elf =>
    { p with
      format := .elf
      privateMark := ".L"
      weakRefDirective := "\t.weak\t"
      pcSymbol := "."
      hasLEB128 := true
      debugInfo := true
      exceptions := .dwarfCFI
      nonexecStackSection := ".note.GNU-stack" }
  | .coff =>
    { p with
      format := .coff
      globalMark := "_"
      privateMark := "L"
      hasLEB128 := true
      debugInfo := true }
  | .unspecified => { p with format := .unspecified }

/-- What the operating system overrides. -/
def osStep (b : Bucket) (p : Profile) : Profile :=
  match b.os with
  | .openbsd => { p with data64Directive := if b.arch = .x86 then "" else p.data64Directive }
  | .msvc =>
    if b.arch = .x86_64 then
      { p with globalMark := "", privateMark := ".L", exceptions := .win64 }
    else p
  | .cygming =>
    { p with
      globalMark := if b.arch = .x86_64 then "" else p.globalMark
      privateMark := if b.arch = .x86_64 then ".L" else p.privateMark
      weakRefDirective := "\t.weak\t"
      exceptions := .dwarfCFI }
  | .darwin | .generic => p

/-- What the environment overrides: the pointer is narrowed, the stack slot is not. -/
def envStep (b : Bucket) (p : Profile) : Profile :=
  match b.env with
  | .x32 => { p with pointerSize := 4 }
  | .standard => p

/-- The profile of a bucket, if its architecture has conventions. -/
def ofBucket (b : Bucket) (c : Conventions) : Except ProfileError Profile :=
  if b.arch.isSupported then
    .ok (envStep b (osStep b (formatStep b c (archStep b c { bucket := b }))))
  else .error ⟨b.arch⟩

/-- The profile of a platform. -/
def ofTriple (t : Triple) (c : Conventions) : Except ProfileError Profile :=
  ofBucket t.bucket c

/-- The directive that defines a weak symbol, empty when the platform has none. -/
def weakDirective (p : Profile) : String :=
  if p.weakDefDirective = "" then p.weakRefDirective else p.weakDefDirective

/-- The directive for a datum of the given number of bytes. -/
def dataDirective? (p : Profile) (size : Int) : Option String :=
  let directive :=
    if size = 1 then p.data8Directive
    else if size = 2 then p.data16Directive
    else if size = 4 then p.data32Directive
    else if size = 8 then p.data64Directive
    else ""
  if directive = "" then none else some directive

/-- Whether data of eight bytes can be written as one datum. -/
def hasData64 (p : Profile) : Bool :=
  p.data64Directive ≠ ""

/-- Whether exceptions unwind through call-frame information. -/
def frameUnwind (p : Profile) : Bool :=
  p.exceptions = .dwarfCFI

/-- The expression by which unwind tables reach a personality routine. -/
def personalityExpr (p : Profile) (sym : String) : Expr :=
  if p.arch = .x86_64 ∧ p.format = .macho ∧ p.frameUnwind = true then Expr.personality sym
  else Expr.ref sym

/-- A truth value as the settings list shows it. -/
def flagText (b : Bool) : String :=
  if b then "true" else "false"

/-- Every setting by name, in the order of display. Texts are quoted. -/
def settings (p : Profile) : List (String × String) :=
  [("bucket", p.bucket.render),
    ("arch", p.arch.name),
    ("object-format", p.format.name),
    ("pointer-size", Nat.repr p.pointerSize),
    ("callee-save-slot-size", Nat.repr p.calleeSaveSlotSize),
    ("assembler-dialect", p.dialect.name),
    ("text-align-fill", "0x" ++ String.ofList (Text.hexByte p.textFill)),
    ("comment", Text.quote p.comment),
    ("global-prefix", Text.quote p.globalMark),
    ("private-prefix", Text.quote p.privateMark),
    ("global-directive", Text.quote p.globalDirective),
    ("weak-ref-directive", Text.quote p.weakRefDirective),
    ("weak-def-directive", Text.quote p.weakDefDirective),
    ("pc-symbol", Text.quote p.pcSymbol),
    ("has-leb128", flagText p.hasLEB128),
    ("data64-directive", Text.quote p.data64Directive),
    ("align-directive", Text.quote p.alignDirective),
    ("alignment-in-bytes", flagText p.alignInBytes),
    ("debug-info", flagText p.debugInfo),
    ("dwarf-inline-info-section", flagText p.dwarfInlineInfoSection),
    ("exceptions", p.exceptions.name),
    ("data-region-directives", flagText p.dataRegions),
    ("text-section", Text.quote p.textSection),
    ("data-section", Text.quote p.dataSection),
    ("nonexec-stack-section", Text.quote p.nonexecStackSection)]

/-- A profile remembers the bucket it was built for. -/
theorem bucket_of_ofBucket {b : Bucket} {c : Conventions} {p : Profile}
    (h : ofBucket b c = .ok p) : p.bucket = b := by
  simp only [ofBucket] at h
  split at h
  · obtain rfl := Except.ok.inj h
    obtain ⟨arch, format, os, env⟩ := b
    cases format <;> cases os <;> cases env <;>
      simp only [envStep, osStep, formatStep, archStep] <;> (try split) <;> rfl
  · cases h

end Profile

end CodeEmission
