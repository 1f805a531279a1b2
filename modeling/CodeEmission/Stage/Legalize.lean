import CodeEmission.Stage.Basic

/-!
# Legalization

Replaces data that the target cannot express. Where there is no directive for eight bytes, a value
of eight bytes becomes two of four, the low half first. Weak linkage without a weak directive is
refused, and so is, on the 64-bit architecture, a memory operand with both a symbol and a base
register, since symbols are addressed relative to the instruction pointer there.
-/

namespace CodeEmission

/-- One value as values of at most four bytes. The address of a symbol fits the low half. -/
def Datum.split (v : Datum) : List Datum :=
  if v.size ≠ 8 then [v]
  else if v.sym ≠ "" then [{ size := 4, int := v.int, sym := v.sym }, { size := 4 }]
  else
    let word := v.int.toUInt64.toNat
    [{ size := 4, int := Int64.ofNat (word % UInt32.size) },
      { size := 4, int := Int64.ofNat (word / UInt32.size) }]

/-- Values of at most four bytes that stand for the given ones. -/
def splitQuads (values : List Datum) : List Datum :=
  values.flatMap Datum.split

/-- An operand that no addressing mode of the 64-bit architecture has. -/
def Operand.pairsSymbolWithBase (op : Operand) : Bool :=
  op.kind = .mem && op.sym ≠ "" && op.base ≠ ""

/-- The first operand of a function that pairs a symbol with a base register, where that matters. -/
def Func.symbolBaseFault? (p : Profile) (f : Func) : Option StageFault :=
  if p.arch ≠ .x86_64 then none
  else (f.insts.zipIdx).findSome? fun (inst, i) =>
    (inst.operands.find? Operand.pairsSymbolWithBase).map fun op =>
      .symbolWithBase f.name i op.sym op.base

/-- The fault of weak linkage where the platform has none. -/
def weakFault? (p : Profile) (kind : EntityKind) (name : String) (l : Linkage) :
    Option StageFault :=
  if l = .weak ∧ p.weakDirective = "" then some (.weakUnsupported kind name p.bucket) else none

namespace Legalize

/-- Everything that legalization refuses, functions first. -/
def faults (p : Profile) (u : CodeUnit) : List StageFault :=
  (u.funcs.flatMap fun f =>
      (weakFault? p .func f.name f.linkage).toList ++ (f.symbolBaseFault? p).toList) ++
    u.data.flatMap fun d => (weakFault? p .data d.name d.linkage).toList

/-- A data object whose values the target can express. -/
def expressible (p : Profile) (d : DataObject) : DataObject :=
  if p.hasData64 then d else { d with values := splitQuads d.values }

/-- Legalize a unit. -/
def run (p : Profile) (u : CodeUnit) : StageOutcome :=
  { unit := { u with data := u.data.map (expressible p) }, faults := faults p u }

/-- The first value of eight bytes in a data object. -/
def wideDatum? (d : DataObject) : Option StageFault :=
  (d.values.zipIdx.find? fun (v, _) => v.size = 8).map fun (_, i) => .wideDatum d.name i

/-- What is left to refuse after legalization. -/
def check (p : Profile) (u : CodeUnit) : Option StageFault :=
  match u.funcs.findSome? (·.symbolBaseFault? p) with
  | some fault => some fault
  | none => if p.hasData64 then none else u.data.findSome? wideDatum?

/-- The stage. -/
def stage : Stage := { name := "legalize", run, check := some check }

end Legalize

end CodeEmission
