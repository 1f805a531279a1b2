import CodeEmission.CodeUnit.Basic

/-!
# Objects

A relocatable object: sections of bytes with the relocations that apply to them, a symbol table and
unwind records. The words for kinds and bindings that an object file can hold are open, so every
such type has a constructor `other` for a word without a meaning here.
-/

namespace CodeEmission

/-- How a relocation is resolved. `pcRel32` is a 32-bit displacement from the end of the field. -/
inductive RelocKind where
  | pcRel32 | abs32 | abs64
  | other (text : String)
  deriving DecidableEq, Repr, Inhabited

namespace RelocKind

/-- The word for a kind. -/
def text : RelocKind → String
  | pcRel32 => "pcrel32"
  | abs32 => "abs32"
  | abs64 => "abs64"
  | other text => text

/-- The kind that a word names. -/
def ofText : String → RelocKind
  | "pcrel32" => pcRel32
  | "abs32" => abs32
  | "abs64" => abs64
  | text => other text

end RelocKind

/-- Who sees a symbol at link time. -/
inductive Binding where
  | global | weak | internal
  | other (text : String)
  deriving DecidableEq, Repr, Inhabited

namespace Binding

/-- The word for a binding. -/
def text : Binding → String
  | global => "global"
  | weak => "weak"
  | internal => "local"
  | other text => text

/-- The binding that a word names. -/
def ofText : String → Binding
  | "global" => global
  | "weak" => weak
  | "local" => internal
  | text => other text

/-- The binding of a linkage. -/
def ofLinkage : Linkage → Binding
  | .global => global
  | .weak => weak
  | _ => internal

end Binding

/-- What a symbol stands for. A symbol that is only referred to is `untyped`. -/
inductive SymbolKind where
  | untyped | func | data | label
  | other (text : String)
  deriving DecidableEq, Repr, Inhabited

namespace SymbolKind

/-- The word for a kind. -/
def text : SymbolKind → String
  | untyped => ""
  | func => "func"
  | data => "data"
  | label => "label"
  | other text => text

/-- The kind that a word names. -/
def ofText : String → SymbolKind
  | "" => untyped
  | "func" => func
  | "data" => data
  | "label" => label
  | text => other text

end SymbolKind

/-- A field of a section that the linker fills with a symbol's address plus an addend. -/
structure Reloc where
  /-- Where the field starts in the section. -/
  offset : UInt32 := 0
  /-- How the field is resolved. -/
  kind : RelocKind := .other ""
  /-- The symbol. -/
  symbol : String := ""
  /-- What is added to its address. -/
  addend : Int64 := 0
  deriving DecidableEq, Repr, Inhabited

/-- A named run of bytes. -/
structure Section where
  /-- The name. -/
  name : String := ""
  /-- The alignment in bytes. -/
  align : UInt32 := 0
  /-- The bytes. -/
  data : List UInt8 := []
  /-- The fields that the linker fills. -/
  relocs : List Reloc := []
  deriving DecidableEq, Repr, Inhabited

/-- An entry of the symbol table. -/
structure Symbol where
  /-- The name. -/
  name : String := ""
  /-- What it stands for. -/
  kind : SymbolKind := .untyped
  /-- Who sees it. -/
  binding : Binding := .other ""
  /-- The section it lies in; empty for a symbol that is only referred to. -/
  section_ : String := ""
  /-- Where it starts in its section. -/
  offset : UInt32 := 0
  /-- How many bytes it covers. -/
  size : UInt32 := 0
  deriving DecidableEq, Repr, Inhabited

/-- Whether a symbol has a place in the object. -/
def Symbol.isDefined (s : Symbol) : Bool :=
  s.section_ ≠ ""

/-- How a function of the object unwinds. -/
structure UnwindRecord where
  /-- The function's symbol. -/
  func : String := ""
  /-- The word for the kind of record. -/
  kind : String := ""
  /-- The text of the personality expression. -/
  personality : String := ""
  /-- The symbols it refers to. -/
  personalitySyms : List String := []
  deriving DecidableEq, Repr, Inhabited

/-- A relocatable object. -/
structure Object where
  /-- The name of the unit it was made from. -/
  unit : String := ""
  /-- The name of the object format. -/
  format : String := ""
  /-- The name of the architecture. -/
  arch : String := ""
  /-- The width of a pointer in bytes. -/
  pointerSize : UInt8 := 0
  /-- The sections. -/
  sections : List Section := []
  /-- The symbol table. -/
  symbols : List Symbol := []
  /-- The unwind records. -/
  unwind : List UnwindRecord := []
  deriving DecidableEq, Repr, Inhabited

namespace Object

/-- The text that opens every object file. -/
def magic : String := "MCOBJ"

/-- The version of the container's shape. -/
def schema : Nat := 1

/-- The first section of a name. -/
def section? (o : Object) (name : String) : Option Section :=
  o.sections.find? fun s => s.name = name

/-- The first symbol of a name. -/
def symbol? (o : Object) (name : String) : Option Symbol :=
  o.symbols.find? fun s => s.name = name

end Object

end CodeEmission
