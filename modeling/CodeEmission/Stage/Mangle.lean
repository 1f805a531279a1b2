import CodeEmission.Stage.Basic
import CodeEmission.Text.Composed

/-!
# Mangling

Gives every entity its symbol. Names are brought to composed form; a symbol takes the platform's
mark before its name, the private one for hidden entities. Labels and jump tables of a function
become private symbols that carry the function's name, so labels of different functions stay apart.

A reference is looked up among the labels of its own function first and then among the entities of
the unit, where the last entity of a name wins; a name that is neither belongs to another unit and
takes the global mark.
-/

namespace CodeEmission

/-- The symbol of an entity. -/
def symbolFor (p : Profile) (name : String) (l : Linkage) : String :=
  (if l = .hidden then p.privateMark else p.globalMark) ++ name

namespace Mangle

/-- The symbols of a unit's entities by composed name, functions first. -/
def definitions (p : Profile) (u : CodeUnit) : List (String × String) :=
  (u.funcs.map fun f => (Text.composed f.name, symbolFor p (Text.composed f.name) f.linkage)) ++
    u.data.map fun d => (Text.composed d.name, symbolFor p (Text.composed d.name) d.linkage)

/-- The symbol that a name refers to outside of functions. The last definition wins. -/
def reference (p : Profile) (defs : List (String × String)) (name : String) : String :=
  let name := Text.composed name
  match defs.reverse.find? fun d => d.1 = name with
  | some d => d.2
  | none => p.globalMark ++ name

/-- The private symbol of a label, if it is one of the given labels of the function. -/
def localSymbol? (p : Profile) (func : String) (locals : List String) (label : String) :
    Option String :=
  if label ≠ "" ∧ locals.contains label then some (p.privateMark ++ func ++ "_" ++ label)
  else none

/-- An operand with its symbol mangled. -/
def operand (p : Profile) (defs : List (String × String)) (func : String) (locals : List String)
    (op : Operand) : Operand :=
  match op.kind with
  | .label => { op with sym := (localSymbol? p func locals op.sym).getD op.sym }
  | .sym | .mem =>
    if op.sym = "" then op
    else { op with sym := (localSymbol? p func locals op.sym).getD (reference p defs op.sym) }
  | _ => op

/-- An instruction with its label and symbols mangled. -/
def inst (p : Profile) (defs : List (String × String)) (func : String) (locals : List String)
    (i : Inst) : Inst :=
  { i with
    label := (localSymbol? p func locals i.label).getD ""
    operands := i.operands.map (operand p defs func locals) }

/-- A jump table with its labels mangled. -/
def jumpTable (p : Profile) (func : String) (locals : List String) (t : JumpTable) : JumpTable :=
  { label := (localSymbol? p func locals t.label).getD ""
    targets := t.targets.map fun target => (localSymbol? p func locals target).getD target }

/-- A function with every name mangled. -/
def func (p : Profile) (defs : List (String × String)) (f : Func) : Func :=
  let name := Text.composed f.name
  let locals := f.labels ++ f.tableLabels
  { f with
    name
    symbol := symbolFor p name f.linkage
    insts := f.insts.map (inst p defs name locals)
    jumpTables := f.jumpTables.map (jumpTable p name locals)
    personality := if f.personality = "" then "" else reference p defs f.personality }

/-- A value with its symbol mangled. -/
def datum (p : Profile) (defs : List (String × String)) (v : Datum) : Datum :=
  if v.sym = "" then v else { v with sym := reference p defs v.sym }

/-- A data object with every name mangled. -/
def dataObject (p : Profile) (defs : List (String × String)) (d : DataObject) : DataObject :=
  { d with
    name := Text.composed d.name
    symbol := symbolFor p (Text.composed d.name) d.linkage
    values := d.values.map (datum p defs) }

/-- A unit with every name mangled. -/
def mangled (p : Profile) (u : CodeUnit) : CodeUnit :=
  let defs := definitions p u
  { u with funcs := u.funcs.map (func p defs), data := u.data.map (dataObject p defs) }

/-- The symbols of a mangled unit with their names, for the trace. -/
def notes (u : CodeUnit) : List SymbolNote :=
  (u.funcs.map fun f => ⟨f.symbol, f.name⟩) ++ u.data.map fun d => ⟨d.symbol, d.name⟩

/-- Mangle a unit. -/
def run (p : Profile) (u : CodeUnit) : StageOutcome :=
  { unit := mangled p u, notes := notes (mangled p u) }

/-- The stage. -/
def stage : Stage := { name := "mangle", run }

end Mangle

end CodeEmission
