import CodeEmission.CodeUnit.Verify
import CodeEmission.Object.Basic
import CodeEmission.Platform.Profile

/-!
# Assembling a Unit

Functions go one after the other into the section of code and data objects into the section of data.
An entity starts at the next multiple of its alignment; the gap is filled, in code with the
no-operation byte and in data with zeros. What one entity contributes at a given offset is a
`Chunk`, and a section is the concatenation of the chunks of its entities.

An instruction with symbolic operands gets one relocation, for the first of them. The field is four
bytes wide and lies at the instruction's fixup offset or, without one, at its end; its displacement
counts from the end of the instruction. On 32-bit x86 a memory operand is absolute instead.

A jump table follows its function: four bytes for each target, the target's offset minus the
table's, known here since both lie in one section.

Offsets are checked against 32 bits; the sum of an offset and a fixup wraps at 64.
-/

namespace CodeEmission

/-- What stops the assembling of one function or data object. -/
inductive AssembleFault where
  | outOfRange
  | noEncoding (inst : Nat) (op : String)
  | badEncoding (inst : Nat) (cause : EncodingError)
  | noRoom (inst length : Nat)
  | table (label : String) (fault : AssembleFault)
  | unknownTarget (target : String)
  | badSize (value : Nat) (size : Int64)
  | impossibleSize
  deriving DecidableEq, Repr

/-- Why a unit could not be assembled. -/
structure AssembleError where
  /-- What the entity at fault is. -/
  kind : EntityKind
  /-- The entity's name in the source. -/
  name : String
  /-- What is wrong with it. -/
  fault : AssembleFault
  deriving DecidableEq, Repr

/-- The wording of a fault. -/
def AssembleFault.message : AssembleFault → String
  | outOfRange => "out of range"
  | noEncoding inst op => "instruction " ++ Nat.repr inst ++ " (" ++ op ++ ") has no encoding"
  | badEncoding inst cause => "instruction " ++ Nat.repr inst ++ ": " ++ cause.message
  | noRoom inst length =>
    "instruction " ++ Nat.repr inst ++ ": " ++ Nat.repr length ++
      "-byte encoding has no room for a 32-bit fixup"
  | table label fault => "jump table " ++ label ++ ": " ++ fault.message
  | unknownTarget target => "unknown target " ++ Text.quote target
  | badSize value size =>
    "value " ++ Nat.repr value ++ ": unsupported size " ++ Text.ofInt64 size
  | impossibleSize => "impossible size"

/-- The wording of a failure. -/
def AssembleError.message (e : AssembleError) : String :=
  e.kind.word ++ " " ++ e.name ++ ": " ++ e.fault.message

/-- Whether a size was asked for that no object can have. -/
def AssembleError.isImpossible (e : AssembleError) : Bool :=
  match e.fault with
  | .impossibleSize | .table _ .impossibleSize => true
  | _ => false

/-- What a part of a unit contributes to its section and to the object. -/
structure Chunk where
  /-- The bytes, fill bytes included. -/
  bytes : List UInt8 := []
  /-- The strictest alignment that was asked for. -/
  align : Nat := 1
  /-- The relocations. -/
  relocs : List Reloc := []
  /-- The symbols. -/
  symbols : List Symbol := []
  /-- The unwind records. -/
  unwind : List UnwindRecord := []
  deriving DecidableEq, Repr

namespace Chunk

/-- One chunk after another. -/
def append (a b : Chunk) : Chunk :=
  { bytes := a.bytes ++ b.bytes, align := max a.align b.align, relocs := a.relocs ++ b.relocs
    symbols := a.symbols ++ b.symbols, unwind := a.unwind ++ b.unwind }

/-- The bytes of two chunks are those of the first and then those of the second. -/
@[simp]
theorem bytes_append (a b : Chunk) : (a.append b).bytes = a.bytes ++ b.bytes := rfl

/-- The relocations of two chunks are those of the first and then those of the second. -/
@[simp]
theorem relocs_append (a b : Chunk) : (a.append b).relocs = a.relocs ++ b.relocs := rfl

/-- The symbols of two chunks are those of the first and then those of the second. -/
@[simp]
theorem symbols_append (a b : Chunk) : (a.append b).symbols = a.symbols ++ b.symbols := rfl

/-- How chunks are grouped does not matter. -/
theorem append_assoc (a b c : Chunk) : (a.append b).append c = a.append (b.append c) := by
  simp [append, List.append_assoc, Nat.max_assoc]

/-- The chunks of a list of things one after another, from an offset on. -/
def concat {α ε : Type} (f : Nat → α → Except ε Chunk) (loc : Nat) :
    List α → Except ε Chunk
  | [] => .ok {}
  | a :: rest =>
    match f loc a with
    | .error e => .error e
    | .ok chunk =>
      match concat f (loc + chunk.bytes.length) rest with
      | .error e => .error e
      | .ok later => .ok (chunk.append later)

end Chunk

/-- A number as an unsigned 32-bit word, if it fits. -/
def word32 (n : Int) : Except AssembleFault UInt32 :=
  if 0 ≤ n ∧ n.toNat < UInt32.size then .ok (UInt32.ofNat n.toNat) else .error .outOfRange

/-- The lowest bytes of a number, the lowest first. -/
def littleEndian : Nat → Nat → List UInt8
  | 0, _ => []
  | width + 1, n => UInt8.ofNat (n % 256) :: littleEndian width (n / 256)

/-- As many bytes are written as were asked for. -/
@[simp]
theorem length_littleEndian (width n : Nat) : (littleEndian width n).length = width := by
  induction width generalizing n with
  | zero => rfl
  | succ width ih => simp [littleEndian, ih]

/-- The fill bytes that bring an offset to a multiple of an alignment. -/
def padding (align loc : Nat) (fill : UInt8) : List UInt8 :=
  if align ≤ 1 then [] else List.replicate ((align - loc % align) % align) fill

/-- After its fill bytes an offset is a multiple of the alignment. -/
theorem dvd_add_length_padding {align : Nat} (h : 0 < align) (loc : Nat) (fill : UInt8) :
    align ∣ loc + (padding align loc fill).length := by
  unfold padding
  split
  next hle =>
    have hone : align = 1 := by omega
    subst hone
    exact Nat.one_dvd _
  next hgt =>
    rw [List.length_replicate]
    refine Nat.dvd_of_mod_eq_zero ?_
    have hlt : loc % align < align := Nat.mod_lt loc h
    by_cases hz : loc % align = 0
    · simp [hz]
    · have hsub : (align - loc % align) % align = align - loc % align :=
        Nat.mod_eq_of_lt (by omega)
      rw [Nat.add_mod, Nat.mod_mod, hsub, Nat.add_sub_cancel' (Nat.le_of_lt hlt), Nat.mod_self]

/-- The fill bytes before an entity. An alignment of one or less asks for nothing. -/
def padChunk (align : Int64) (loc : Nat) (fill : UInt8) : Except AssembleFault Chunk :=
  if align ≤ 1 then .ok {}
  else match word32 align.toInt with
    | .error e => .error e
    | .ok _ =>
      .ok { bytes := padding align.toInt.toNat loc fill, align := align.toInt.toNat }

/-- A symbol at an offset of a section. -/
def symbolAt (section_ name : String) (kind : SymbolKind) (binding : Binding) (loc size : Nat) :
    Except AssembleFault Symbol :=
  match word32 loc, word32 size with
  | .ok offset, .ok size => .ok { name, kind, binding, section_, offset, size }
  | .error e, _ => .error e
  | _, .error e => .error e

/-- Where the symbol field lies in an encoding of the given length, if there is room for it. -/
def fixupPlace? (fixup : Int64) (length : Nat) : Option Int64 :=
  -- an offset of zero stands for "at the end": no instruction starts with its symbol field
  let fix := if fixup = 0 then Int64.ofNat length - 4 else fixup
  if fix < 0 ∨ Int64.ofNat length < fix + 4 then none else some fix

/-- The operand that an instruction is relocated for: the first with a symbol. -/
def Inst.symbolic? (inst : Inst) : Option Operand :=
  inst.operands.find? fun op => op.sym ≠ ""

/-- Whether a symbolic operand is resolved to an address rather than a displacement. -/
def Operand.isAbsolute (p : Profile) (op : Operand) : Bool :=
  op.kind = .mem && p.arch = .x86

/-- The relocation of an operand whose field lies at `fix` in an encoding of `length` bytes at
`loc`. -/
def operandReloc (p : Profile) (loc length : Nat) (fix : Int64) (op : Operand) :
    Except AssembleFault Reloc :=
  match word32 (Int64.ofNat loc + fix).toInt with
  | .error e => .error e
  | .ok offset =>
    .ok (if op.isAbsolute p then { offset, kind := .abs32, symbol := op.sym, addend := op.disp }
      else
        { offset, kind := .pcRel32, symbol := op.sym
          addend := op.disp - (Int64.ofNat length - fix) })

/-- The relocations of an instruction, numbered `i`, whose encoding is `bytes` at `loc`. -/
def instRelocs (p : Profile) (i loc : Nat) (inst : Inst) (bytes : List UInt8) :
    Except AssembleFault (List Reloc) :=
  match inst.symbolic? with
  | none => .ok []
  | some op =>
    match fixupPlace? inst.fixupOffset bytes.length with
    | none => .error (.noRoom i bytes.length)
    | some fix => (operandReloc p loc bytes.length fix op).map fun r => [r]

/-- What an instruction, numbered `i`, contributes at an offset. -/
def instChunk (p : Profile) (loc : Nat) (numbered : Inst × Nat) : Except AssembleFault Chunk :=
  let (inst, i) := numbered
  let labels : Except AssembleFault (List Symbol) :=
    if inst.label = "" then .ok []
    else (symbolAt p.textSection inst.label .label .internal loc 0).map fun s => [s]
  match labels with
  | .error e => .error e
  | .ok symbols =>
    -- a label out of range is found before a missing encoding
    if inst.encoding = "" then .error (.noEncoding i inst.op)
    else match decodeEncoding inst.encoding with
      | .error cause => .error (.badEncoding i cause)
      | .ok bytes =>
        (instRelocs p i loc inst bytes).map fun relocs => { bytes, relocs, symbols }

/-- The offset of the last instruction that carries a label, given the symbols of a body. -/
def labelOffset? (symbols : List Symbol) (label : String) : Option Nat :=
  (symbols.reverse.find? fun s => s.name = label).map fun s => s.offset.toNat

/-- The entries of a jump table at `base`, given the symbols of its function's body. -/
def tableEntries (body : List Symbol) (base : Nat) :
    List String → Except AssembleFault (List UInt8)
  | [] => .ok []
  | target :: rest =>
    match labelOffset? body target with
    | none => .error (.unknownTarget target)
    | some loc =>
      let rel : Int := (loc : Int) - base
      if Int32.minValue.toInt ≤ rel ∧ rel ≤ Int32.maxValue.toInt then
        (tableEntries body base rest).map fun later =>
          littleEndian 4 (rel % UInt32.size).toNat ++ later
      else .error .outOfRange

/-- What a jump table contributes at an offset, given the symbols of its function's body. -/
def tableChunk (p : Profile) (body : List Symbol) (loc : Nat) (t : JumpTable) :
    Except AssembleFault Chunk :=
  let fill := padding 4 loc p.textFill
  let base := loc + fill.length
  match symbolAt p.textSection t.label .label .internal base 0 with
  | .error e => .error (.table t.label e)
  | .ok symbol =>
    match tableEntries body base t.targets with
    | .error e => .error (.table t.label e)
    | .ok entries => .ok { bytes := fill ++ entries, align := 4, symbols := [symbol] }

/-- The word for the kind of an unwind record. -/
def UnwindKind.word : UnwindKind → String
  | .seh => "seh"
  | _ => "cfi"

/-- The unwind records of a function. -/
def Func.unwindRecords (f : Func) : List UnwindRecord :=
  if f.unwind.kind = .none then []
  else
    [{ func := f.emittedName, kind := f.unwind.kind.word, personality := f.unwind.personality
       personalitySyms := f.unwind.personalitySyms }]

/-- What a function contributes at an offset. -/
def funcChunk (p : Profile) (loc : Nat) (f : Func) : Except AssembleFault Chunk := do
  let pad ← padChunk f.align loc p.textFill
  let start := loc + pad.bytes.length
  let opening ← symbolAt p.textSection f.emittedName .func (.ofLinkage f.linkage) start 0
  let body ← Chunk.concat (instChunk p) start f.insts.zipIdx
  let size ← word32 body.bytes.length
  -- the size counts the instructions alone, neither the fill before nor the tables after them
  let head : Chunk := { symbols := [{ opening with size }] }
  let tables ← Chunk.concat (tableChunk p body.symbols) (start + body.bytes.length) f.jumpTables
  return (((pad.append head).append body).append tables).append { unwind := f.unwindRecords }

/-- The bytes of an integer of the given width, if that is a width of data. -/
def integerBytes? (size int : Int64) : Option (List UInt8) :=
  let n := int.toUInt64.toNat
  if size = 1 then some (littleEndian 1 n)
  else if size = 2 then some (littleEndian 2 n)
  else if size = 4 then some (littleEndian 4 n)
  else if size = 8 then some (littleEndian 8 n)
  else none

/-- What a value, numbered `i`, contributes at an offset. The bytes of a symbol's address are zero
until the linker fills them. -/
def valueChunk (loc : Nat) (numbered : Datum × Nat) : Except AssembleFault Chunk :=
  let (v, i) := numbered
  if v.sym = "" then
    match integerBytes? v.size v.int with
    | none => .error (.badSize i v.size)
    | some bytes => .ok { bytes }
  else
    match word32 loc with
    | .error e => .error e
    | .ok offset =>
      if v.size < 0 ∨ 0x800000000000 < v.size.toInt then .error .impossibleSize
      else
        .ok { bytes := List.replicate v.size.toInt.toNat 0
              relocs := [{ offset, kind := if v.size = 8 then .abs64 else .abs32
                           symbol := v.sym, addend := v.int }] }

/-- What a data object contributes at an offset. -/
def dataChunk (p : Profile) (loc : Nat) (d : DataObject) : Except AssembleFault Chunk := do
  let pad ← padChunk d.align loc 0
  let start := loc + pad.bytes.length
  let opening ← symbolAt p.dataSection d.emittedName .data (.ofLinkage d.linkage) start 0
  let body ← Chunk.concat valueChunk start d.values.zipIdx
  let size ← word32 body.bytes.length
  return (pad.append { symbols := [{ opening with size }] }).append body

namespace Object

/-- The name of a fault's entity joined to the fault. -/
def blame {α : Type} (kind : EntityKind) (name : String) :
    Except AssembleFault α → Except AssembleError α
  | .ok a => .ok a
  | .error fault => .error ⟨kind, name, fault⟩

/-- The section that a chunk fills. -/
def sectionOf (name : String) (c : Chunk) : Section :=
  { name, align := UInt32.ofNat c.align, data := c.bytes, relocs := c.relocs }

/-- The symbols that relocations and unwind records refer to, in order. -/
def references (text data : Chunk) : List String :=
  text.relocs.map Reloc.symbol ++ (text.unwind.flatMap UnwindRecord.personalitySyms) ++
    data.relocs.map Reloc.symbol

/-- Entries for the symbols that are referred to and not defined, in the order of their names. -/
def undefinedSymbols (defined : List Symbol) (refs : List String) : List Symbol :=
  ((refs.filter fun r => !(defined.any fun s => s.name = r)).eraseDups.mergeSort
    (fun a b => decide (a ≤ b))).map fun name => { name, binding := .global }

/-- The object of a unit. -/
def assemble (p : Profile) (u : CodeUnit) : Except AssembleError Object := do
  let text ← Chunk.concat (fun loc f => blame .func f.name (funcChunk p loc f)) 0 u.funcs
  let data ← Chunk.concat (fun loc d => blame .data d.name (dataChunk p loc d)) 0 u.data
  let defined := text.symbols ++ data.symbols
  return { unit := u.name, format := p.format.name, arch := p.arch.name
           pointerSize := UInt8.ofNat p.pointerSize
           sections := (if u.funcs.isEmpty then [] else [sectionOf p.textSection text]) ++
             (if u.data.isEmpty then [] else [sectionOf p.dataSection data])
           symbols := defined ++ undefinedSymbols defined (references text data)
           unwind := text.unwind }

end Object

end CodeEmission
