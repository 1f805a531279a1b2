/-!
# Code Units

A code unit is what the emitter takes in: functions of already selected instructions, and data. The
types hold what a unit file can say, also where it makes no sense; `CodeUnit.Verify` tells which
units do.

Integers are 64-bit words. Some fields are written by the emission stages only: a function's or
data object's section and symbol, and a function's unwind record.
-/

namespace CodeEmission

/-- The visibility of a symbol. `hidden` is known to the assembler only and written `private`;
`other` is a word that names no linkage. -/
inductive Linkage where
  | global | internal | hidden | weak
  | other (text : String)
  deriving DecidableEq, Repr, Inhabited

namespace Linkage

/-- The linkage that a word names. -/
def ofText : String → Linkage
  | "global" => global
  | "internal" => internal
  | "private" => hidden
  | "weak" => weak
  | text => other text

/-- The word for a linkage. -/
def text : Linkage → String
  | global => "global"
  | internal => "internal"
  | hidden => "private"
  | weak => "weak"
  | other text => text

/-- Whether the linker sees the symbol. -/
def isVisible : Linkage → Bool
  | global | weak => true
  | _ => false

/-- A word and the linkage it names go back and forth. -/
theorem text_ofText (s : String) : (ofText s).text = s := by
  unfold ofText
  split <;> rfl

end Linkage

/-- What an operand is. `other` is a word that names no kind. -/
inductive OperandKind where
  | reg | imm | sym | label | mem
  | other (text : String)
  deriving DecidableEq, Repr, Inhabited

namespace OperandKind

/-- The kind that a word names. -/
def ofText : String → OperandKind
  | "reg" => reg
  | "imm" => imm
  | "sym" => sym
  | "label" => label
  | "mem" => mem
  | text => other text

/-- The word for a kind. -/
def text : OperandKind → String
  | reg => "reg"
  | imm => "imm"
  | sym => "sym"
  | label => "label"
  | mem => "mem"
  | other text => text

end OperandKind

/-- An operand of an instruction. A memory operand addresses `disp` past the register `base` or,
with a symbol, `disp` past the symbol. -/
structure Operand where
  /-- What the operand is. -/
  kind : OperandKind
  /-- The register of a register operand. -/
  reg : String := ""
  /-- The value of an immediate operand. -/
  imm : Int64 := 0
  /-- The symbol or label that is referred to. -/
  sym : String := ""
  /-- The base register of a memory operand. -/
  base : String := ""
  /-- The displacement of a memory operand. -/
  disp : Int64 := 0
  deriving DecidableEq, Repr, Inhabited

/-- A selected instruction. Operands stand in the order destination first. -/
structure Inst where
  /-- The label that is defined here, if any. -/
  label : String := ""
  /-- The operation. -/
  op : String
  /-- The width letter of the operation in AT&T notation. -/
  suffix : String := ""
  /-- The operands. -/
  operands : List Operand := []
  /-- The machine code in hexadecimal, blanks allowed. -/
  encoding : String := ""
  /-- Where the 32-bit symbol field lies in the machine code; zero means its last four bytes. -/
  fixupOffset : Int64 := 0
  deriving DecidableEq, Repr, Inhabited

/-- A table of 32-bit offsets, relative to the table, of local labels. -/
structure JumpTable where
  /-- The label of the table. -/
  label : String
  /-- The labels it lists. -/
  targets : List String
  deriving DecidableEq, Repr, Inhabited

/-- The kind of an unwind record. `other` is a code that no kind has. -/
inductive UnwindKind where
  | none | cfi | seh
  | other (code : UInt8)
  deriving DecidableEq, Repr, Inhabited

/-- The kind of a code. -/
def UnwindKind.ofCode (code : UInt8) : UnwindKind :=
  match code with
  | 0 => .none
  | 1 => .cfi
  | 2 => .seh
  | _ => .other code

/-- The code of a kind. -/
def UnwindKind.code : UnwindKind → UInt8
  | none => 0
  | cfi => 1
  | seh => 2
  | other code => code

/-- How a function's frame unwinds. -/
structure Unwind where
  /-- The kind of the record. -/
  kind : UnwindKind := .none
  /-- The text of the personality expression. -/
  personality : String := ""
  /-- The symbol of the personality routine. -/
  personalitySym : String := ""
  /-- The symbols that the personality expression refers to. -/
  personalitySyms : List String := []
  deriving DecidableEq, Repr, Inhabited

/-- A function. -/
structure Func where
  /-- The name in the source. -/
  name : String
  /-- The visibility. -/
  linkage : Linkage
  /-- The alignment in bytes; zero asks for the default. -/
  align : Int64 := 0
  /-- The exception personality routine, if any. -/
  personality : String := ""
  /-- The body. -/
  insts : List Inst := []
  /-- The jump tables after the body. -/
  jumpTables : List JumpTable := []
  /-- The section, once laid out. -/
  section_ : String := ""
  /-- The symbol, once mangled. -/
  symbol : String := ""
  /-- The unwind record, once attached. -/
  unwind : Unwind := {}
  deriving DecidableEq, Repr, Inhabited

/-- One datum: an integer or, with a symbol, the symbol's address plus the integer. -/
structure Datum where
  /-- The width in bytes. -/
  size : Int64
  /-- The integer. -/
  int : Int64 := 0
  /-- The symbol, if any. -/
  sym : String := ""
  deriving DecidableEq, Repr, Inhabited

/-- An initialised data object. -/
structure DataObject where
  /-- The name in the source. -/
  name : String
  /-- The visibility. -/
  linkage : Linkage
  /-- The alignment in bytes; zero asks for the default. -/
  align : Int64 := 0
  /-- The values. -/
  values : List Datum := []
  /-- The section, once laid out. -/
  section_ : String := ""
  /-- The symbol, once mangled. -/
  symbol : String := ""
  deriving DecidableEq, Repr, Inhabited

/-- A code unit. -/
structure CodeUnit where
  /-- The name of the unit. -/
  name : String := ""
  /-- The source file it came from, if known. -/
  sourceFile : String := ""
  /-- The functions. -/
  funcs : List Func := []
  /-- The data objects. -/
  data : List DataObject := []
  deriving DecidableEq, Repr, Inhabited

/-- The symbol a function is written under: the mangled one, or its name before mangling. -/
def Func.emittedName (f : Func) : String :=
  if f.symbol = "" then f.name else f.symbol

/-- The symbol a data object is written under: the mangled one, or its name before mangling. -/
def DataObject.emittedName (d : DataObject) : String :=
  if d.symbol = "" then d.name else d.symbol

namespace CodeUnit

/-- Whether a name is that of a function or data object of the unit. -/
def defines (u : CodeUnit) (name : String) : Bool :=
  u.funcs.any (fun f => f.name = name) || u.data.any (fun d => d.name = name)

/-- The symbols of all functions, then of all data objects. -/
def emittedNames (u : CodeUnit) : List String :=
  u.funcs.map Func.emittedName ++ u.data.map DataObject.emittedName

end CodeUnit

end CodeEmission
