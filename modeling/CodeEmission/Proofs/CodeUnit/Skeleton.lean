import CodeEmission.Proofs.Pipeline.InternalReferences

/-!
# Units without Their Texts

The skeleton of a unit is the unit with its texts taken out: what stays is how many functions,
instructions, operands, tables and values there are, of which kinds, linkages, alignments and widths,
and of labels and personality routines whether they are there. No stage looks at a text for more than
that, so the skeleton of a unit decides the skeleton of what the stages make of it.

* `Mangle.skeleton_func`, `Mangle.skeleton_dataObject`: mangling changes texts only.
* `Layout.skeleton_func`, `Legalize.skeleton_expressible`, `UnwindStage.skeleton_record`: the other stages
  do the same to a unit and to its skeleton.
* `skeleton_standardResult_congr`: units with one skeleton have one skeleton after all stages.
-/

namespace CodeEmission

/-- A text that says of another one only whether it is there. -/
def Text.presence (s : String) : String :=
  if s = "" then "" else "_"

@[simp]
theorem Text.presence_eq_empty_iff {s : String} : presence s = "" ↔ s = "" := by
  unfold presence
  split <;> simp_all

/-- Texts of which both or none are there cannot be told apart. -/
theorem Text.presence_congr {s t : String} (h : s = "" ↔ t = "") : presence s = presence t := by
  simp only [presence, h]

/-! ## Skeletons -/

/-- An operand without its names and numbers. -/
def Operand.skeleton (op : Operand) : Operand :=
  { kind := op.kind }

/-- An instruction without its texts. -/
def Inst.skeleton (i : Inst) : Inst :=
  { label := Text.presence i.label, op := "", operands := i.operands.map Operand.skeleton }

/-- A jump table without its labels. -/
def JumpTable.skeleton (t : JumpTable) : JumpTable :=
  { label := "", targets := t.targets.map fun _ => "" }

/-- An unwind record without its texts. -/
def Unwind.skeleton (w : Unwind) : Unwind :=
  { kind := w.kind, personalitySym := Text.presence w.personalitySym }

/-- A function without its texts. -/
def Func.skeleton (f : Func) : Func :=
  { name := "", linkage := f.linkage, align := f.align, personality := Text.presence f.personality
    insts := f.insts.map Inst.skeleton, jumpTables := f.jumpTables.map JumpTable.skeleton
    unwind := f.unwind.skeleton }

/-- A value without its symbol and number. -/
def Datum.skeleton (v : Datum) : Datum :=
  { size := v.size }

/-- A data object without its texts. -/
def DataObject.skeleton (d : DataObject) : DataObject :=
  { name := "", linkage := d.linkage, align := d.align, values := d.values.map Datum.skeleton }

/-- A unit without its texts. -/
def CodeUnit.skeleton (u : CodeUnit) : CodeUnit :=
  { sourceFile := Text.presence u.sourceFile, funcs := u.funcs.map Func.skeleton
    data := u.data.map DataObject.skeleton }

/-! A skeleton is its own skeleton. -/

@[simp]
theorem Text.presence_presence (s : String) : presence (presence s) = presence s :=
  presence_congr presence_eq_empty_iff

theorem Inst.skeleton_skeleton (i : Inst) : i.skeleton.skeleton = i.skeleton := by
  simp [skeleton, Operand.skeleton]

theorem JumpTable.skeleton_skeleton (t : JumpTable) : t.skeleton.skeleton = t.skeleton := by
  simp [skeleton]

theorem DataObject.skeleton_skeleton (d : DataObject) : d.skeleton.skeleton = d.skeleton := by
  simp [skeleton, Datum.skeleton]

/-! ## Legalization -/

/-- A value of eight bytes has halves of four. -/
theorem Datum.map_skeleton_split (v : Datum) :
    v.split.map skeleton = if v.size = 8 then [{ size := 4 }, { size := 4 }] else [v.skeleton] := by
  by_cases hwide : v.size = 8
  · by_cases hsym : v.sym = ""
    · simp [split, skeleton, hwide, hsym]
    · simp [split, skeleton, hwide, hsym]
  · simp [split, hwide]

theorem Legalize.skeleton_expressible (p : Profile) (d : DataObject) :
    (expressible p d).skeleton = (expressible p d.skeleton).skeleton := by
  have hsplit : (splitQuads d.values).map Datum.skeleton =
      (splitQuads (d.values.map Datum.skeleton)).map Datum.skeleton := by
    simp only [splitQuads, List.map_flatMap, List.flatMap_map, Datum.map_skeleton_split]
    rfl
  unfold expressible
  split
  · exact d.skeleton_skeleton.symm
  · simp only [DataObject.skeleton, hsplit]

/-! ## Mangling -/

namespace Mangle

variable {p : Profile} {u : CodeUnit}

/-- Mangling keeps the kinds of operands. -/
theorem skeleton_operand (defs : List (String × String)) (func : String) (locals : List String)
    (op : Operand) : (operand p defs func locals op).skeleton = op.skeleton := by
  simp only [Operand.skeleton]
  unfold operand
  split
  · rfl
  · split <;> rfl
  · split <;> rfl
  · rfl

/-- Mangling keeps which instructions have labels, if all labels are known. -/
theorem skeleton_inst {f : Func} {i : Inst} (hi : i ∈ f.insts) :
    (inst p (definitions p u) (Text.composed f.name) f.locals i).skeleton = i.skeleton := by
  have hlabel : (localSymbol? p (Text.composed f.name) f.locals i.label).getD "" = "" ↔
      i.label = "" := by
    by_cases hnone : i.label = ""
    · simp [localSymbol?, hnone]
    · have hlocal := Func.label_mem_locals hi hnone
      simp [localSymbol?_of_mem hlocal, privateSymbol_ne_empty, hnone]
  simp only [Inst.skeleton, inst, List.map_map]
  rw [Text.presence_congr hlabel]
  simp only [Function.comp_def, skeleton_operand]

theorem skeleton_func (f : Func) : (func p (definitions p u) f).skeleton = f.skeleton := by
  have hinsts : (f.insts.map (inst p (definitions p u) (Text.composed f.name) f.locals)).map
      Inst.skeleton = f.insts.map Inst.skeleton := by
    rw [List.map_map]
    exact List.map_congr_left fun i hi => skeleton_inst hi
  have htables : (f.jumpTables.map (jumpTable p (Text.composed f.name) f.locals)).map
      JumpTable.skeleton = f.jumpTables.map JumpTable.skeleton := by
    simp [JumpTable.skeleton, jumpTable, Function.comp_def]
  have hpersonality : (if f.personality = "" then ""
      else reference p (definitions p u) f.personality) = "" ↔ f.personality = "" := by
    split
    next hnone => simp [hnone]
    next hname => simp [reference_ne_empty hname, hname]
  simp only [Func.skeleton, func]
  rw [Text.presence_congr hpersonality]
  congr 1

theorem skeleton_dataObject (defs : List (String × String)) (d : DataObject) :
    (dataObject p defs d).skeleton = d.skeleton := by
  have hvalue : ∀ v : Datum, (datum p defs v).skeleton = v.skeleton := by
    intro v
    unfold datum
    split <;> rfl
  simp only [DataObject.skeleton, dataObject, List.map_map, Function.comp_def, hvalue]

end Mangle

/-! ## Layout and unwind records -/

namespace Layout

/-- The widest value can be found in the skeleton. -/
theorem widest_skeleton (values : List Datum) : widest (values.map Datum.skeleton) = widest values := by
  rw [widest, List.foldl_map]
  rfl

theorem skeleton_dataObject (p : Profile) (d : DataObject) :
    (dataObject p d).skeleton = (dataObject p d.skeleton).skeleton := by
  have hvalues := congrArg DataObject.values d.skeleton_skeleton
  simp only [DataObject.skeleton] at hvalues
  simp only [DataObject.skeleton, dataObject, hvalues, widest_skeleton]

end Layout

/-- An unwind record depends on a personality routine by whether there is one. -/
theorem UnwindStage.skeleton_record (p : Profile) (personality : String) :
    (record p personality).skeleton = (record p (Text.presence personality)).skeleton := by
  unfold record
  simp only [Text.presence_eq_empty_iff]
  split
  · rfl
  next hsome =>
    rw [not_or] at hsome
    simp [Unwind.skeleton, Text.presence, hsome.1]

/-! ## All stages -/

/-- A mangled function after the remaining stages. -/
def Func.finished (p : Profile) (f : Func) : Func :=
  { Layout.func p f with unwind := UnwindStage.record p f.personality }

theorem Func.skeleton_finished (p : Profile) (f : Func) :
    (f.finished p).skeleton = (f.skeleton.finished p).skeleton := by
  have hrecord := UnwindStage.skeleton_record p f.personality
  simp only [skeleton, finished, Layout.func, Text.presence_presence, List.map_map,
    Function.comp_def, Inst.skeleton_skeleton, JumpTable.skeleton_skeleton]
  rw [hrecord]
  rfl

variable {p : Profile} {u v : CodeUnit}

/-- The skeleton of a unit after all stages is what the stages make of its skeleton. -/
theorem skeleton_standardResult :
    (standardResult p u).skeleton =
      { sourceFile := Text.presence u.sourceFile
        funcs := u.skeleton.funcs.map fun f => (f.finished p).skeleton
        data := u.skeleton.data.map fun d =>
          (Layout.dataObject p (Legalize.expressible p d).skeleton).skeleton } := by
  have hfunc : ∀ f : Func, (Func.finished p (Mangle.func p (Mangle.definitions p u) f)).skeleton =
      (f.skeleton.finished p).skeleton := fun f => by
    rw [Func.skeleton_finished, Mangle.skeleton_func]
  have hdata : ∀ d : DataObject, (Layout.dataObject p (Mangle.dataObject p (Mangle.definitions p u)
      (Legalize.expressible p d))).skeleton =
        (Layout.dataObject p (Legalize.expressible p d.skeleton).skeleton).skeleton := fun d => by
    rw [Layout.skeleton_dataObject, Mangle.skeleton_dataObject, Legalize.skeleton_expressible]
  have hfile : (standardResult p u).sourceFile = u.sourceFile := rfl
  rw [CodeUnit.skeleton, hfile, funcs_standardResult, data_standardResult, CodeUnit.skeleton]
  simp only [List.map_map, Function.comp_def, hdata]
  congr 1
  exact List.map_congr_left fun f _ => hfunc f

/-- Units with one skeleton have one skeleton after all stages. -/
theorem skeleton_standardResult_congr (h : u.skeleton = v.skeleton) :
    (standardResult p u).skeleton = (standardResult p v).skeleton := by
  have hfile : Text.presence u.sourceFile = Text.presence v.sourceFile :=
    congrArg CodeUnit.sourceFile h
  rw [skeleton_standardResult, skeleton_standardResult, h, hfile]

end CodeEmission
