import CodeEmission.CodeUnit.Basic
import CodeEmission.Platform.Profile
import CodeEmission.Text.Decimal

/-!
# Operands as Text

The two notations of an instruction. AT&T marks registers with `%` and immediates with `$`, lists
the source first and appends the width letter to the operation. Intel lists the destination first,
writes addresses in brackets and the width as words before them.

On the 64-bit architecture a symbol is addressed relative to the instruction pointer. An Intel
displacement below zero is written as a difference; the least 64-bit integer is its own negation, so
its digits keep their sign.
-/

namespace CodeEmission

/-- A symbol and an offset from it; an offset of zero is left out. -/
def symPlus (sym : String) (off : Int64) : String :=
  if 0 < off then sym ++ "+" ++ Text.ofInt64 off
  else if off < 0 then sym ++ Text.ofInt64 off
  else sym

/-- The operand is of no kind that can be written. -/
structure OperandError where
  /-- The word for the kind. -/
  kind : String
  deriving DecidableEq, Repr

/-- The wording of a failure. -/
def OperandError.message (e : OperandError) : String :=
  "unknown operand kind " ++ Text.quote e.kind

namespace Operand

/-- The address of a memory operand in AT&T notation. -/
def attAddress (arch : Arch) (op : Operand) : String :=
  if op.sym ≠ "" then
    if op.base ≠ "" then symPlus op.sym op.disp ++ "(%" ++ op.base ++ ")"
    else if arch = .x86_64 then symPlus op.sym op.disp ++ "(%rip)"
    else symPlus op.sym op.disp
  else if op.disp = 0 then "(%" ++ op.base ++ ")"
  else Text.ofInt64 op.disp ++ "(%" ++ op.base ++ ")"

/-- An operand in AT&T notation. -/
def attText (arch : Arch) (op : Operand) : Except OperandError String :=
  match op.kind with
  | .reg => .ok ("%" ++ op.reg)
  | .imm => .ok ("$" ++ Text.ofInt64 op.imm)
  | .sym | .label => .ok op.sym
  | .mem => .ok (op.attAddress arch)
  | .other text => .error ⟨text⟩

/-- The address of a memory operand in Intel notation, without its brackets. -/
def intelAddress (arch : Arch) (op : Operand) : String :=
  if op.sym ≠ "" then
    if op.base ≠ "" then op.base ++ " + " ++ symPlus op.sym op.disp
    else if arch = .x86_64 then "rip + " ++ symPlus op.sym op.disp
    else symPlus op.sym op.disp
  else if 0 < op.disp then op.base ++ " + " ++ Text.ofInt64 op.disp
  else if op.disp < 0 then op.base ++ " - " ++ Text.ofInt64 (-op.disp)
  else op.base

/-- The words for a width letter. -/
def intelWidth : String → String
  | "b" => "byte ptr "
  | "w" => "word ptr "
  | "l" => "dword ptr "
  | "q" => "qword ptr "
  | _ => ""

/-- An operand in Intel notation, in an instruction with the given width letter. -/
def intelText (arch : Arch) (suffix : String) (op : Operand) : Except OperandError String :=
  match op.kind with
  | .reg => .ok op.reg
  | .imm => .ok (Text.ofInt64 op.imm)
  | .sym | .label => .ok op.sym
  | .mem => .ok (intelWidth suffix ++ "[" ++ op.intelAddress arch ++ "]")
  | .other text => .error ⟨text⟩

/-- An operand in the given notation. -/
def text (dialect : Dialect) (arch : Arch) (suffix : String) (op : Operand) :
    Except OperandError String :=
  match dialect with
  | .att => op.attText arch
  | .intel => op.intelText arch suffix

end Operand

/-- An operand of an instruction that cannot be written, with its number. -/
structure InstError where
  /-- The number of the operand. -/
  operand : Nat
  /-- What is wrong with it. -/
  cause : OperandError
  deriving DecidableEq, Repr

/-- The wording of a failure. -/
def InstError.message (e : InstError) : String :=
  "operand " ++ Nat.repr e.operand ++ ": " ++ e.cause.message

namespace Inst

/-- The texts of operands, numbered from `j` on. -/
def operandTexts (dialect : Dialect) (arch : Arch) (suffix : String) (j : Nat) :
    List Operand → Except InstError (List String)
  | [] => .ok []
  | op :: rest =>
    match op.text dialect arch suffix with
    | .error cause => .error ⟨j, cause⟩
    | .ok text =>
      match operandTexts dialect arch suffix (j + 1) rest with
      | .error e => .error e
      | .ok texts => .ok (text :: texts)

/-- The operation and the operand texts of an instruction, in the order of writing. -/
def parts (dialect : Dialect) (arch : Arch) (i : Inst) : Except InstError (String × List String) :=
  match operandTexts dialect arch i.suffix 0 i.operands with
  | .error e => .error e
  | .ok texts =>
    .ok (match dialect with
      | .att => (i.op ++ i.suffix, texts.reverse)
      | .intel => (i.op, texts))

end Inst

end CodeEmission
