import CodeEmission.CodeUnit.Basic
import CodeEmission.CodeUnit.Encoding
import CodeEmission.Text.Decimal

/-!
# Structural Checks of a Unit

`CodeUnit.problems` lists everything that is structurally wrong with a unit, in the order of its
functions and then its data objects, so a unit is sound when the list is empty. Every cause is a
constructor of `Problem` or `Fault`; `Problem.message` words it.

Local names are those of instruction labels and jump tables of one function. Symbols are compared
by the name they are emitted under.
-/

namespace CodeEmission

/-- What a symbol is defined as. -/
inductive EntityKind where
  | func | data
  deriving DecidableEq, Repr, Inhabited

/-- The word for a kind of definition. -/
def EntityKind.word : EntityKind → String
  | func => "func"
  | data => "data"

/-- What can be wrong inside one function or data object. Numbers count instructions, operands and
values from zero. -/
inductive Fault where
  | unknownLinkage (text : String)
  | badAlign (align : Int64)
  | duplicateLabel (label : String) (inst : Nat)
  | tableWithoutLabel
  | tableLabelTaken (label : String)
  | tableWithoutTargets (label : String)
  | unknownTarget (table target : String)
  | noOpcode (inst : Nat)
  | noRegister (inst operand : Nat)
  | noSymbol (inst operand : Nat)
  | unknownLabel (inst operand : Nat) (label : String)
  | noAddress (inst operand : Nat)
  | unknownKind (inst operand : Nat) (text : String)
  | badEncoding (inst : Nat) (cause : EncodingError)
  | fixupOutside (inst : Nat) (fixup : Int64) (length : Nat)
  | badSize (value : Nat) (size : Int64)
  | symbolTooWide (value : Nat) (sym : String) (size : Int64)
  deriving DecidableEq, Repr

/-- What can be wrong with a unit. -/
inductive Problem where
  | unnamedUnit
  | unnamed (kind : EntityKind)
  | redefinition (kind : EntityKind) (name : String) (earlier : EntityKind)
  | inside (kind : EntityKind) (name : String) (fault : Fault)
  deriving DecidableEq, Repr

/-- The place of an operand. -/
def operandAt (inst operand : Nat) : String :=
  "instruction " ++ Nat.repr inst ++ " operand " ++ Nat.repr operand ++ ": "

/-- The wording of a fault. -/
def Fault.message : Fault → String
  | unknownLinkage text => "unknown linkage " ++ Text.quote text
  | badAlign align => "alignment " ++ Text.ofInt64 align ++ " is not a power of two"
  | duplicateLabel label inst =>
    "duplicate label " ++ Text.quote label ++ " at instruction " ++ Nat.repr inst
  | tableWithoutLabel => "jump table with empty label"
  | tableLabelTaken label => "jump table label " ++ Text.quote label ++ " already defined"
  | tableWithoutTargets label => "jump table " ++ Text.quote label ++ " has no targets"
  | unknownTarget table target =>
    "jump table " ++ Text.quote table ++ " targets unknown label " ++ Text.quote target
  | noOpcode inst => "instruction " ++ Nat.repr inst ++ " has no opcode"
  | noRegister inst operand => operandAt inst operand ++ "register operand without register"
  | noSymbol inst operand => operandAt inst operand ++ "symbol operand without symbol"
  | unknownLabel inst operand label =>
    operandAt inst operand ++ "unknown label " ++ Text.quote label
  | noAddress inst operand =>
    operandAt inst operand ++ "memory operand without base or symbol"
  | unknownKind inst operand text =>
    operandAt inst operand ++ "unknown operand kind " ++ Text.quote text
  | badEncoding inst cause => "instruction " ++ Nat.repr inst ++ ": " ++ cause.message
  | fixupOutside inst fixup length =>
    "instruction " ++ Nat.repr inst ++ ": fixup offset " ++ Text.ofInt64 fixup ++ " outside " ++
      Nat.repr length ++ "-byte encoding"
  | badSize value size =>
    "value " ++ Nat.repr value ++ " has size " ++ Text.ofInt64 size ++ " (want 1, 2, 4 or 8)"
  | symbolTooWide value sym size =>
    "value " ++ Nat.repr value ++ ": symbol " ++ Text.quote sym ++ " does not fit in " ++
      Text.ofInt64 size ++ " bytes"

/-- The wording of a problem. -/
def Problem.message : Problem → String
  | unnamedUnit => "unit has no name"
  | unnamed kind => kind.word ++ " with empty name"
  | redefinition kind name earlier =>
    kind.word ++ " " ++ Text.quote name ++ " redefines " ++ earlier.word
  | inside kind name fault => kind.word ++ " " ++ name ++ ": " ++ fault.message

/-- Several problems, one a line. -/
def Problem.messages (ps : List Problem) : String :=
  String.intercalate "\n" (ps.map Problem.message)

/-- A single fault where a condition fails. -/
def faultUnless (ok : Bool) (fault : Fault) : List Fault :=
  if ok then [] else [fault]

/-- Whether an alignment is the default or a power of two that fits 32 bits. -/
def isAlignment (align : Int64) : Bool :=
  align = 0 || (List.range 32).any fun k => align.toInt = Nat.pow 2 k

/-- The faults of a linkage. -/
def Linkage.faults : Linkage → List Fault
  | other text => [.unknownLinkage text]
  | _ => []

/-- The faults of an alignment. -/
def alignFaults (align : Int64) : List Fault :=
  faultUnless (isAlignment align) (.badAlign align)

namespace Func

/-- The labels of a function's instructions. -/
def labels (f : Func) : List String :=
  (f.insts.map Inst.label).filter (· ≠ "")

/-- The labels of a function's jump tables. -/
def tableLabels (f : Func) : List String :=
  (f.jumpTables.map JumpTable.label).filter (· ≠ "")

/-- Labels defined again, given those seen before the instruction numbered `i`. -/
def duplicateFaults (seen : List String) (i : Nat) : List Inst → List Fault
  | [] => []
  | inst :: rest =>
    if inst.label = "" then duplicateFaults seen (i + 1) rest
    else
      faultUnless (!seen.contains inst.label) (.duplicateLabel inst.label i) ++
        duplicateFaults (inst.label :: seen) (i + 1) rest

/-- The faults of a jump table's targets. -/
def targetFaults (labels : List String) (table : JumpTable) : List Fault :=
  faultUnless (!table.targets.isEmpty) (.tableWithoutTargets table.label) ++
    table.targets.flatMap fun target =>
      faultUnless (labels.contains target) (.unknownTarget table.label target)

/-- The faults of jump tables, given the labels of those before. -/
def tableFaults (labels seen : List String) : List JumpTable → List Fault
  | [] => []
  | table :: rest =>
    if table.label = "" then .tableWithoutLabel :: tableFaults labels seen rest
    else
      faultUnless (!(labels.contains table.label || seen.contains table.label))
          (.tableLabelTaken table.label) ++
        targetFaults labels table ++ tableFaults labels (table.label :: seen) rest

end Func

/-- The faults of one operand, given the function's local names and where the operand stands. -/
def Operand.faults (locals : List String) (i j : Nat) (op : Operand) : List Fault :=
  match op.kind with
  | .reg => faultUnless (op.reg ≠ "") (.noRegister i j)
  | .imm => []
  | .sym => faultUnless (op.sym ≠ "") (.noSymbol i j)
  | .label => faultUnless (locals.contains op.sym) (.unknownLabel i j op.sym)
  | .mem => faultUnless (op.base ≠ "" || op.sym ≠ "") (.noAddress i j)
  | .other text => [.unknownKind i j text]

/-- Whether a symbol field lies inside an encoding. The sum wraps like every 64-bit sum. -/
def fixupFits (fixup : Int64) (length : Nat) : Bool :=
  fixup = 0 || (0 ≤ fixup && fixup + 4 ≤ Int64.ofNat length)

namespace Inst

/-- The faults of an instruction's machine code. -/
def encodingFaults (i : Nat) (inst : Inst) : List Fault :=
  if inst.encoding = "" then []
  else match decodeEncoding inst.encoding with
    | .error cause => [.badEncoding i cause]
    | .ok bytes =>
      faultUnless (fixupFits inst.fixupOffset bytes.length)
        (.fixupOutside i inst.fixupOffset bytes.length)

/-- The faults of one instruction, given the function's local names and its number. -/
def faults (locals : List String) (i : Nat) (inst : Inst) : List Fault :=
  faultUnless (inst.op ≠ "") (.noOpcode i) ++
    (inst.operands.zipIdx.flatMap fun (op, j) => op.faults locals i j) ++
    inst.encodingFaults i

end Inst

/-- Everything wrong inside a function. -/
def Func.faults (f : Func) : List Fault :=
  f.linkage.faults ++ alignFaults f.align ++ duplicateFaults [] 0 f.insts ++
    tableFaults f.labels [] f.jumpTables ++
    f.insts.zipIdx.flatMap fun (inst, i) => inst.faults (f.labels ++ f.tableLabels) i

/-- The faults of one value, given its number. -/
def Datum.faults (i : Nat) (v : Datum) : List Fault :=
  faultUnless (v.size = 1 || v.size = 2 || v.size = 4 || v.size = 8) (.badSize i v.size) ++
    faultUnless (v.sym = "" || 4 ≤ v.size) (.symbolTooWide i v.sym v.size)

/-- Everything wrong inside a data object. -/
def DataObject.faults (d : DataObject) : List Fault :=
  d.linkage.faults ++ alignFaults d.align ++ d.values.zipIdx.flatMap fun (v, i) => v.faults i

/-- A function or a data object. -/
inductive Entity where
  | func (f : Func)
  | data (d : DataObject)
  deriving DecidableEq, Repr

namespace Entity

/-- What the entity is. -/
def kind : Entity → EntityKind
  | func _ => .func
  | data _ => .data

/-- The entity's name in the source. -/
def name : Entity → String
  | func f => f.name
  | data d => d.name

/-- The symbol the entity is written under. -/
def emittedName : Entity → String
  | func f => f.emittedName
  | data d => d.emittedName

/-- Everything wrong inside the entity. -/
def faults : Entity → List Fault
  | func f => f.faults
  | data d => d.faults

/-- What is wrong with the entity's symbol, given the entities before it. -/
def nameProblems (before : List Entity) (e : Entity) : List Problem :=
  if e.emittedName = "" then [.unnamed e.kind]
  else match before.find? fun b => b.emittedName = e.emittedName with
    | some earlier => [.redefinition e.kind e.emittedName earlier.kind]
    | none => []

/-- The problems of entities, given those before them. -/
def problems (before : List Entity) : List Entity → List Problem
  | [] => []
  | e :: rest =>
    nameProblems before e ++ e.faults.map (.inside e.kind e.name) ++
      problems (before ++ [e]) rest

end Entity

namespace CodeUnit

/-- The functions, then the data objects. -/
def entities (u : CodeUnit) : List Entity :=
  u.funcs.map .func ++ u.data.map .data

/-- Everything that is structurally wrong with a unit. -/
def problems (u : CodeUnit) : List Problem :=
  (if u.name = "" then [.unnamedUnit] else []) ++ Entity.problems [] u.entities

end CodeUnit

/-- Why a unit did not pass the structural checks. -/
inductive VerifyError where
  | noUnit
  | problems (list : List Problem)
  deriving DecidableEq, Repr

/-- The wording of a failure. -/
def VerifyError.message : VerifyError → String
  | noUnit => "nil unit"
  | problems list => Problem.messages list

/-- Check a unit, or the lack of one. -/
def verify : Option CodeUnit → Except VerifyError Unit
  | none => .error .noUnit
  | some u => if u.problems.isEmpty then .ok () else .error (.problems u.problems)

/-- How often a number can be halved without rest, counted up to `fuel`. -/
def trailingZeros : Nat → Nat → Nat
  | 0, _ => 0
  | fuel + 1, n => if n % 2 = 0 then trailingZeros fuel (n / 2) + 1 else 0

/-- The binary logarithm of an alignment that is a power of two; zero and below count as one. -/
def log2Align (align : Int64) : Nat :=
  if align ≤ 1 then 0 else trailingZeros 64 align.toInt.toNat

end CodeEmission
