import CodeEmission.Stage.Basic

/-!
# Layout

Puts functions and data into the platform's sections and fills in alignments that were left open:
sixteen bytes for a function, the widest value for a data object.
-/

namespace CodeEmission.Layout

/-- The alignment of a data object that asks for none: its widest value, and at least one byte. -/
def widest (values : List Datum) : Int64 :=
  values.foldl (fun align v => if align < v.size then v.size else align) 1

/-- A function in its section. -/
def func (p : Profile) (f : Func) : Func :=
  { f with section_ := p.textSection, align := if f.align = 0 then 16 else f.align }

/-- A data object in its section. -/
def dataObject (p : Profile) (d : DataObject) : DataObject :=
  { d with section_ := p.dataSection, align := if d.align = 0 then widest d.values else d.align }

/-- Lay out a unit. -/
def run (p : Profile) (u : CodeUnit) : StageOutcome :=
  { unit := { u with funcs := u.funcs.map (func p), data := u.data.map (dataObject p) } }

/-- The first function or data object without a section. -/
def check (_ : Profile) (u : CodeUnit) : Option StageFault :=
  match u.funcs.find? fun f => f.section_ = "" with
  | some f => some (.noSection .func f.name)
  | none => (u.data.find? fun d => d.section_ = "").map fun d => .noSection .data d.name

/-- The stage. -/
def stage : Stage := { name := "layout", run, check := some check }

end CodeEmission.Layout
