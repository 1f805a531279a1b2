import CodeEmission.Proofs.Object.Placement
import CodeEmission.Proofs.Platform.Host

/-!
# What the Linker Stores

A linker that knows where the section of code lies and what address each symbol has fills the fields
of an object. `Reloc.linked?` is what it stores in a field of four bytes; a displacement counts from
the field itself, and numbers wrap at 32 bits.

* `Reloc.linked?_pcRel32` and `Reloc.linked?_abs32`: the addend of an instruction's relocation makes
  up for the bytes between its field and its end, also where the addend wrapped.
* `Object.linked_field`: the one field of an instruction with a symbolic operand is filled with the
  operand's address, counted from the next instruction unless the operand is absolute.
-/

namespace CodeEmission

/-- What a linker stores for a relocation of four bytes in a section at `base`, given the addresses
of symbols. -/
def Reloc.linked? (base : Int) (addr : String → Int) (r : Reloc) : Option (BitVec 32) :=
  match r.kind with
  | .pcRel32 => some (BitVec.ofInt 32 (addr r.symbol + r.addend.toInt - (base + r.offset.toNat)))
  | .abs32 => some (BitVec.ofInt 32 (addr r.symbol + r.addend.toInt))
  | _ => none

/-- The value that a symbolic operand of an instruction stands for, when the instruction ends at an
address: the symbol's address and the displacement, from the end of the instruction on unless the
operand is memory on 32-bit x86. -/
def Operand.linkedValue (p : Profile) (addr : String → Int) (finish : Int) (op : Operand) : Int :=
  if op.kind = .mem ∧ p.arch = .x86 then addr op.sym + op.disp.toInt
  else addr op.sym + op.disp.toInt - finish

/-- Numbers with the same remainder fill a field with the same bits. -/
theorem ofInt_eq_of_emod_eq {a b : Int} (h : a % 0x100000000 = b % 0x100000000) :
    BitVec.ofInt 32 a = BitVec.ofInt 32 b := by
  refine BitVec.eq_of_toNat_eq ?_
  rw [BitVec.toNat_ofInt, BitVec.toNat_ofInt]
  exact congrArg Int.toNat h

/-- A difference of 64-bit words agrees with that of the numbers in the low bits. -/
theorem toInt_sub_ofInt_emod (disp : Int64) (n : Int) :
    (disp - Int64.ofInt n).toInt % 0x100000000 = (disp.toInt - n) % 0x100000000 := by
  -- wrapping at 64 bits keeps the lower 32
  have hlow : ∀ m : Int, m.bmod (2 ^ 64) % 0x100000000 = m % 0x100000000 := by
    intro m
    rw [Int.bmod_def]
    omega
  have hn : (Int64.ofInt n).toInt % 0x100000000 = n % 0x100000000 := by
    rw [Int64.toInt_ofInt]
    exact hlow n
  rw [Int64.toInt_sub, hlow]
  omega

section Linked

variable {p : Profile} {op : Operand} {offset : UInt32} {place field : Int} {length : Nat}

/-- A displacement is counted from the end of the instruction, wherever its field lies. -/
theorem Reloc.linked?_pcRel32 (hoffset : (offset.toNat : Int) = place + field)
    (habsolute : ¬ (op.kind = .mem ∧ p.arch = .x86)) (base : Int) (addr : String → Int) :
    Reloc.linked? base addr
        { offset, kind := .pcRel32, symbol := op.sym
          addend := op.disp - .ofInt (length - field) } =
      some (.ofInt 32 (op.linkedValue p addr (base + place + length))) := by
  have hlow := toInt_sub_ofInt_emod op.disp (length - field)
  rw [Operand.linkedValue, if_neg habsolute, Reloc.linked?, Option.some.injEq]
  refine ofInt_eq_of_emod_eq ?_
  dsimp only
  omega

/-- An absolute operand is stored as it is. -/
theorem Reloc.linked?_abs32 (habsolute : op.kind = .mem ∧ p.arch = .x86) (base finish : Int)
    (addr : String → Int) :
    Reloc.linked? base addr { offset, kind := .abs32, symbol := op.sym, addend := op.disp } =
      some (.ofInt 32 (op.linkedValue p addr finish)) := by
  rw [Operand.linkedValue, if_pos habsolute]
  rfl

end Linked

/-- Every instruction of an object has its machine code at its place. Without a symbolic operand no
relocation applies to it; otherwise exactly one does, in the field of its first symbolic operand,
and wherever the section and the symbols end up, the linker stores there what the operand stands
for. -/
theorem Object.linked_field {p : Profile} {u : CodeUnit} {obj : Object}
    (h : Object.assemble p u = .ok obj) {place : Nat} {inst : Inst}
    (hplaced : (place, inst) ∈ u.placedInsts) :
    ∃ text bytes, obj.section? p.textSection = some text ∧
      decodeEncoding inst.encoding = .ok bytes ∧
      (text.data.drop place).take bytes.length = bytes ∧
      match inst.operands.find? fun op => op.sym ≠ "" with
      | none => text.relocsIn place (place + bytes.length) = []
      | some op => ∃ r, text.relocsIn place (place + bytes.length) = [r] ∧
          (r.offset.toNat : Int) = place + inst.fieldAt bytes.length ∧ r.symbol = op.sym ∧
          ∀ (base : Int) (addr : String → Int),
            r.linked? base addr =
              some (.ofInt 32 (op.linkedValue p addr (base + place + bytes.length))) := by
  obtain ⟨text, bytes, i, hsection, hbytes, hend, hdata, hrelocs⟩ :=
    Object.section?_of_placed h hplaced
  refine ⟨text, bytes, hsection, hbytes, hdata, ?_⟩
  rcases instRelocs_eq_ok hend hrelocs with ⟨hnone, hnil⟩ | ⟨op, offset, hop, -, -, hoffset, hone⟩
  · rw [Inst.symbolic?] at hnone
    rw [hnone]
    exact hnil
  · rw [Inst.symbolic?] at hop
    rw [hop]
    by_cases habsolute : op.kind = .mem ∧ p.arch = .x86
    · have hmode : op.isAbsolute p = true := by simpa [Operand.isAbsolute] using habsolute
      rw [if_pos hmode] at hone
      exact ⟨_, hone, hoffset, rfl, fun base addr => Reloc.linked?_abs32 habsolute base _ addr⟩
    · have hmode : ¬ op.isAbsolute p = true := by simpa [Operand.isAbsolute] using habsolute
      rw [if_neg hmode] at hone
      exact ⟨_, hone, hoffset, rfl, Reloc.linked?_pcRel32 hoffset habsolute⟩

/-- A comparison of the word after a counter with a byte that follows the symbol field. -/
def compareInst : Inst :=
  { op := "cmp", suffix := "l"
    operands := [{ kind := .mem, sym := "counter", disp := 4 }, { kind := .imm, imm := 7 }]
    encoding := "83 3d 00 00 00 00 07", fixupOffset := 2 }

/-- A function that only returns, and one that compares after it. -/
def comparing : CodeUnit :=
  { name := "comparing"
    funcs := [{ name := "first", linkage := .global, align := 16
                insts := [{ op := "ret", encoding := "c3" }] },
      { name := "second", linkage := .global, align := 16
        insts := [compareInst, { op := "ret", encoding := "c3" }] }] }

/-- The field in the middle of the comparison is filled with the distance from the end of the
comparison. -/
theorem Object.linked_field_compare :
    ∃ obj text r, Object.assemble Profile.host comparing = .ok obj ∧
      (16, compareInst) ∈ comparing.placedInsts ∧ obj.section? ".text" = some text ∧
      text.relocsIn 16 23 = [r] ∧ r.offset = 18 ∧ r.symbol = "counter" ∧
      ∀ (base : Int) (addr : String → Int),
        r.linked? base addr = some (.ofInt 32 (addr "counter" + 4 - (base + 16 + 7))) := by
  have hok : (Object.assemble Profile.host comparing).toOption.isSome = true := by decide +kernel
  have hplaced : (16, compareInst) ∈ comparing.placedInsts := by decide +kernel
  have hbytes : decodeEncoding compareInst.encoding = .ok [0x83, 0x3d, 0, 0, 0, 0, 7] := rfl
  cases hobj : Object.assemble Profile.host comparing with
  | error e =>
    rw [hobj] at hok
    cases hok
  | ok obj =>
    obtain ⟨text, bytes, hsection, hbytes', -, hfield⟩ := Object.linked_field hobj hplaced
    rw [hbytes, Except.ok.injEq] at hbytes'
    subst hbytes'
    obtain ⟨r, hone, hoffset, hsymbol, hlinked⟩ := hfield
    refine ⟨obj, text, r, rfl, hplaced, hsection, hone, ?_, hsymbol, hlinked⟩
    exact UInt32.toNat_inj.mp (Int.ofNat_inj.mp hoffset)

end CodeEmission
