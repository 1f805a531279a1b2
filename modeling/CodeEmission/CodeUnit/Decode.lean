import CodeEmission.CodeUnit.Basic
import CodeEmission.Files.Path
import CodeEmission.Text.Blank
import CodeEmission.Toml.Shape

/-!
# Units from Documents

A unit in source form is a TOML document: the unit's own fields at the root, a table for each
function and data object. Functions and data objects without a linkage are global. What the stages
fill in has no key, so such keys are unknown.

A unit that is loaded from a file without a name of its own is named after the file.
-/

namespace CodeEmission

/-- The shape of an operand. -/
def Operand.shape : Toml.Shape :=
  .record [("kind", .text), ("reg", .text), ("imm", .integer), ("sym", .text), ("base", .text),
    ("disp", .integer)]

/-- The shape of an instruction. -/
def Inst.shape : Toml.Shape :=
  .record [("label", .text), ("op", .text), ("suffix", .text), ("operands", .list Operand.shape),
    ("encoding", .text), ("fixup_offset", .integer)]

/-- The shape of a jump table. -/
def JumpTable.shape : Toml.Shape :=
  .record [("label", .text), ("targets", .list .text)]

/-- The shape of a function. -/
def Func.shape : Toml.Shape :=
  .record [("name", .text), ("linkage", .text), ("align", .integer), ("personality", .text),
    ("insts", .list Inst.shape), ("jump_tables", .list JumpTable.shape)]

/-- The shape of a datum. -/
def Datum.shape : Toml.Shape :=
  .record [("size", .integer), ("int", .integer), ("sym", .text)]

/-- The shape of a data object. -/
def DataObject.shape : Toml.Shape :=
  .record [("name", .text), ("linkage", .text), ("align", .integer),
    ("values", .list Datum.shape)]

/-- The shape of a unit. -/
def CodeUnit.shape : Toml.Shape :=
  .record [("name", .text), ("source_file", .text), ("funcs", .list Func.shape),
    ("data", .list DataObject.shape)]

/-- An operand from its table. -/
def Operand.ofTable (t : Toml.Table) : Operand :=
  { kind := .ofText (t.text "kind")
    reg := t.text "reg"
    imm := t.integer "imm"
    sym := t.text "sym"
    base := t.text "base"
    disp := t.integer "disp" }

/-- An instruction from its table. -/
def Inst.ofTable (t : Toml.Table) : Inst :=
  { label := t.text "label"
    op := t.text "op"
    suffix := t.text "suffix"
    operands := (t.records "operands").map Operand.ofTable
    encoding := t.text "encoding"
    fixupOffset := t.integer "fixup_offset" }

/-- A jump table from its table. -/
def JumpTable.ofTable (t : Toml.Table) : JumpTable :=
  { label := t.text "label", targets := t.texts "targets" }

/-- A linkage from its text; the usual one when there is none. -/
def Linkage.ofField (text : String) : Linkage :=
  if text = "" then .global else .ofText text

/-- A function from its table. -/
def Func.ofTable (t : Toml.Table) : Func :=
  { name := t.text "name"
    linkage := .ofField (t.text "linkage")
    align := t.integer "align"
    personality := t.text "personality"
    insts := (t.records "insts").map Inst.ofTable
    jumpTables := (t.records "jump_tables").map JumpTable.ofTable }

/-- A datum from its table. -/
def Datum.ofTable (t : Toml.Table) : Datum :=
  { size := t.integer "size", int := t.integer "int", sym := t.text "sym" }

/-- A data object from its table. -/
def DataObject.ofTable (t : Toml.Table) : DataObject :=
  { name := t.text "name"
    linkage := .ofField (t.text "linkage")
    align := t.integer "align"
    values := (t.records "values").map Datum.ofTable }

namespace CodeUnit

/-- A unit from the root table of its document. -/
def ofTable (t : Toml.Table) : CodeUnit :=
  { name := t.text "name"
    sourceFile := t.text "source_file"
    funcs := (t.records "funcs").map Func.ofTable
    data := (t.records "data").map DataObject.ofTable }

/-- Read a unit. -/
def decode (text : String) : Except Toml.ShapeError CodeUnit :=
  (Toml.Document.ofShape shape text).map fun d => ofTable d.root

/-- Read a unit from the text of the file at a path. -/
def load (path text : String) : Except Toml.ShapeError CodeUnit :=
  (decode text).map fun u =>
    if Text.trim u.name = "" then { u with name := Path.stem path } else u

end CodeUnit

end CodeEmission
