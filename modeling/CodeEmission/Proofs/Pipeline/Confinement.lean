import CodeEmission.Proofs.Assembly.Forms
import CodeEmission.Proofs.Assembly.Texts
import CodeEmission.Proofs.Pipeline.Output

/-!
# Texts Stay on Their Lines

A printer writes names, labels, operations and registers as they are, so a text with a line feed does
not stay on its line. Apart from that no text decides what lines there are.

* `CodeUnit.shownTexts`: the texts of a source unit that its listing shows as they are. The source file
  is not among them; it is quoted.
* `Mangle.plain_operand_iff`: mangling brings no line feed into the names of an operand, and takes none
  away.
* `Listing.plain_ofUnit_iff`: the listing after the stages has no line feed in a text exactly when the
  source unit has none in what is shown of it.
* `lines_of_same_skeleton`: two units that differ in their texts come out with the same lines up to the
  texts, and with the same number of lines where no line feed is shown.

The checks let line feeds pass, and then a name can bring a line of its own (`name_injects_line`).
-/

namespace CodeEmission

open Text (lineFeeds)

/-! ## Texts of a source unit -/

/-- How a function spells a name that it refers to: a label of its own as it is, and any other name in
composed form. -/
def spelled (locals : List String) (name : String) : String :=
  if name ∈ locals then name else Text.composed name

/-- The texts that are shown of an operand, in a function with the given labels. -/
def Operand.shownTexts (locals : List String) (op : Operand) : List String :=
  match op.kind with
  | .reg => [op.reg]
  | .label => [op.sym]
  | .sym => [spelled locals op.sym]
  | .mem => [op.base, spelled locals op.sym]
  | _ => []

/-- The texts that are shown of an instruction. The width letter is shown in AT&T notation only. -/
def Inst.shownTexts (dialect : Dialect) (locals : List String) (i : Inst) : List String :=
  i.label :: i.op :: (if dialect = .att then [i.suffix] else []) ++
    i.operands.flatMap (Operand.shownTexts locals)

theorem Inst.plain_shownTexts_iff {dialect : Dialect} {locals : List String} {i : Inst} :
    (∀ text ∈ i.shownTexts dialect locals, lineFeeds text = 0) ↔
      lineFeeds i.label = 0 ∧ lineFeeds i.op = 0 ∧ (dialect = .att → lineFeeds i.suffix = 0) ∧
        ∀ text ∈ i.operands.flatMap (Operand.shownTexts locals), lineFeeds text = 0 := by
  simp only [shownTexts, List.cons_append, List.forall_mem_cons, List.forall_mem_append]
  cases dialect <;> simp

/-- The texts that are shown of a function. -/
def Func.shownTexts (dialect : Dialect) (f : Func) : List String :=
  Text.composed f.name :: Text.composed f.personality ::
    f.insts.flatMap (Inst.shownTexts dialect f.locals) ++
    f.jumpTables.flatMap fun t => t.label :: t.targets

theorem Func.plain_shownTexts_iff {dialect : Dialect} {f : Func} :
    (∀ text ∈ f.shownTexts dialect, lineFeeds text = 0) ↔
      lineFeeds (Text.composed f.name) = 0 ∧ lineFeeds (Text.composed f.personality) = 0 ∧
        (∀ inst ∈ f.insts, ∀ text ∈ inst.shownTexts dialect f.locals, lineFeeds text = 0) ∧
        ∀ text ∈ f.jumpTables.flatMap fun t => t.label :: t.targets, lineFeeds text = 0 := by
  simp only [shownTexts, List.cons_append, List.forall_mem_cons, List.forall_mem_append,
    List.forall_mem_flatMap]

/-- The texts that are shown of a data object. -/
def DataObject.shownTexts (d : DataObject) : List String :=
  Text.composed d.name :: d.values.map fun v => Text.composed v.sym

/-- The texts of a unit that a listing shows as they are. Names and references stand in composed form,
since that is how they are shown; the source file is not among the texts, since it is quoted. -/
def CodeUnit.shownTexts (dialect : Dialect) (u : CodeUnit) : List String :=
  u.name :: u.funcs.flatMap (Func.shownTexts dialect) ++ u.data.flatMap DataObject.shownTexts

theorem CodeUnit.plain_shownTexts_iff {dialect : Dialect} {u : CodeUnit} :
    (∀ text ∈ u.shownTexts dialect, lineFeeds text = 0) ↔
      lineFeeds u.name = 0 ∧
        (∀ f ∈ u.funcs, ∀ text ∈ f.shownTexts dialect, lineFeeds text = 0) ∧
        ∀ d ∈ u.data, ∀ text ∈ d.shownTexts, lineFeeds text = 0 := by
  simp only [shownTexts, List.cons_append, List.forall_mem_cons, List.forall_mem_append,
    List.forall_mem_flatMap]

/-! ## Texts after mangling -/

namespace Mangle

variable {p : Profile} {u : CodeUnit}

/-- A symbol has the line feeds of its name. -/
theorem lineFeeds_symbolFor (hp : p.IsUsual) (name : String) (l : Linkage) :
    lineFeeds (symbolFor p name l) = lineFeeds name := by
  unfold symbolFor
  split
  · simp [hp.lineFeeds_privateMark]
  · simp [hp.lineFeeds_globalMark]

/-- A reference has the line feeds of the composed name, whatever it leads to. -/
theorem lineFeeds_reference (hp : p.IsUsual) (name : String) :
    lineFeeds (reference p (definitions p u) name) = lineFeeds (Text.composed name) := by
  unfold reference
  dsimp only
  split
  next d hfind =>
    -- what is found is the symbol of an entity with the composed name
    have hmem := List.mem_reverse.mp (List.mem_of_find?_eq_some hfind)
    have hsame : d.1 = Text.composed name := by simpa using List.find?_some hfind
    rw [definitions_eq_map_entities] at hmem
    obtain ⟨e, -, rfl⟩ := List.mem_map.mp hmem
    rw [lineFeeds_symbolFor hp]
    exact congrArg lineFeeds hsame
  next => simp [hp.lineFeeds_globalMark]

/-- The private symbol of a label has the line feeds of the label, in a function whose name has none. -/
theorem lineFeeds_localSymbol (hp : p.IsUsual) {f : Func}
    (hname : lineFeeds (Text.composed f.name) = 0) {label symbol : String}
    (h : localSymbol? p (Text.composed f.name) f.locals label = some symbol) :
    lineFeeds symbol = lineFeeds label := by
  obtain ⟨-, rfl⟩ := localSymbol?_eq_some h
  simp (disch := decide) [Func.privateSymbol, hp.lineFeeds_privateMark, hname, Text.lineFeeds_of_not_mem]

theorem lineFeeds_datum (hp : p.IsUsual) (v : Datum) :
    lineFeeds (datum p (definitions p u) v).sym = lineFeeds (Text.composed v.sym) := by
  unfold datum
  split
  next hnone => simp [hnone, Text.composed_of_ascii]
  next => exact lineFeeds_reference hp v.sym

section Function

variable {f : Func} (hp : p.IsUsual) (hname : lineFeeds (Text.composed f.name) = 0)

include hp hname

/-- A label that a function defines keeps its line feeds, also where there is none. -/
theorem lineFeeds_label {label : String} (h : label ≠ "" → label ∈ f.locals) :
    lineFeeds ((localSymbol? p (Text.composed f.name) f.locals label).getD "") =
      lineFeeds label := by
  by_cases hnone : label = ""
  · simp [localSymbol?, hnone]
  · have hsymbol := localSymbol?_of_mem (p := p) (h hnone)
    rw [hsymbol, Option.getD_some, lineFeeds_localSymbol hp hname hsymbol]

/-- A label that is only referred to keeps its line feeds, whether it is known or not. -/
theorem lineFeeds_target (target : String) :
    lineFeeds ((localSymbol? p (Text.composed f.name) f.locals target).getD target) =
      lineFeeds target := by
  cases hlocal : localSymbol? p (Text.composed f.name) f.locals target with
  | none => rfl
  | some symbol => exact lineFeeds_localSymbol hp hname hlocal

/-- A name that is referred to keeps the line feeds of how the function spells it. -/
theorem lineFeeds_spelled (name : String) :
    lineFeeds ((localSymbol? p (Text.composed f.name) f.locals name).getD
      (reference p (definitions p u) name)) = lineFeeds (spelled f.locals name) := by
  by_cases hlocal : name ∈ f.locals
  · have hsymbol := localSymbol?_of_mem (p := p) hlocal
    rw [hsymbol, Option.getD_some, lineFeeds_localSymbol hp hname hsymbol, spelled, if_pos hlocal]
  · rw [localSymbol?_eq_none _ hlocal, Option.getD_none, lineFeeds_reference hp, spelled,
      if_neg hlocal]

/-- Mangling brings no line feed into the names of an operand, and takes none away. -/
theorem plain_operand_iff (op : Operand) :
    (∀ name ∈ (operand p (definitions p u) (Text.composed f.name) f.locals op).shownNames,
      lineFeeds name = 0) ↔ ∀ text ∈ op.shownTexts f.locals, lineFeeds text = 0 := by
  have hnone : "" ∉ f.locals := fun h => Func.ne_empty_of_mem_locals h rfl
  cases hkind : op.kind with
  | reg | imm | other word =>
    simp [operand, Operand.shownNames, Operand.shownTexts, hkind]
  | label =>
    simp [operand, Operand.shownNames, Operand.shownTexts, hkind, lineFeeds_target hp hname]
  | sym =>
    by_cases hsym : op.sym = ""
    · simp [operand, Operand.shownNames, Operand.shownTexts, hkind, hsym, spelled, hnone,
        Text.composed_of_ascii]
    · simp [operand, Operand.shownNames, Operand.shownTexts, hkind, hsym,
        lineFeeds_spelled hp hname]
  | mem =>
    by_cases hsym : op.sym = ""
    · simp [operand, Operand.shownNames, Operand.shownTexts, hkind, hsym, spelled, hnone,
        Text.composed_of_ascii]
    · simp [operand, Operand.shownNames, Operand.shownTexts, hkind, hsym,
        lineFeeds_spelled hp hname]

end Function

end Mangle

/-- The halves of a value refer to what the value refers to. -/
theorem Legalize.plain_values_expressible_iff {p : Profile} {d : DataObject} :
    (∀ v ∈ (expressible p d).values, lineFeeds (Text.composed v.sym) = 0) ↔
      ∀ v ∈ d.values, lineFeeds (Text.composed v.sym) = 0 := by
  have hsplit : ∀ v : Datum, (∀ w ∈ v.split, lineFeeds (Text.composed w.sym) = 0) ↔
      lineFeeds (Text.composed v.sym) = 0 := by
    intro v
    unfold Datum.split
    split
    · simp
    · split
      next => simp [Text.composed_of_ascii]
      next hnone => simp [not_not.mp hnone, Text.composed_of_ascii]
  unfold expressible
  split
  · exact Iff.rfl
  · simp only [splitQuads, List.forall_mem_flatMap, hsplit]

/-! ## Lines of a unit -/

namespace Listing

variable {p : Profile} {u : CodeUnit} {lines : List Line}

/-- The line of a label is there when the label is. -/
theorem plain_labelLine_iff (label : String) :
    (∀ line ∈ (if label = "" then [] else [Line.label label]), ∀ text ∈ line.texts,
      lineFeeds text = 0) ↔ lineFeeds label = 0 := by
  split
  next hnone => simp [hnone]
  next => simp [Line.texts]

/-- The lines of a function's instructions have no line feed in a text exactly when the instructions
have none in what is shown of them. -/
theorem plain_instLines_iff {f : Func} (hp : p.IsUsual)
    (hname : lineFeeds (Text.composed f.name) = 0) {func : String} {i : Nat} {insts : List Inst}
    (hinsts : ∀ inst ∈ insts, inst ∈ f.insts)
    (h : instLines p func i (insts.map
      (Mangle.inst p (Mangle.definitions p u) (Text.composed f.name) f.locals)) = .ok lines) :
    (∀ line ∈ lines, ∀ text ∈ line.texts, lineFeeds text = 0) ↔
      ∀ inst ∈ insts, ∀ text ∈ inst.shownTexts p.dialect f.locals, lineFeeds text = 0 := by
  induction insts generalizing i lines with
  | nil =>
    cases h
    simp
  | cons inst rest ih =>
    obtain ⟨hinst, hrest⟩ := List.forall_mem_cons.mp hinsts
    rw [List.map_cons, instLines] at h
    split at h
    · cases h
    next operation operands hparts =>
      split at h
      · cases h
      next later hlater =>
        obtain rfl := Except.ok.inj h
        have hlabel : lineFeeds ((Mangle.inst p (Mangle.definitions p u) (Text.composed f.name)
            f.locals inst).label) = lineFeeds inst.label :=
          Mangle.lineFeeds_label hp hname (Func.label_mem_locals hinst)
        have hoperands : (∀ op ∈ (Mangle.inst p (Mangle.definitions p u) (Text.composed f.name)
            f.locals inst).operands, ∀ name ∈ op.shownNames, lineFeeds name = 0) ↔
              ∀ text ∈ inst.operands.flatMap (Operand.shownTexts f.locals), lineFeeds text = 0 := by
          simp only [Mangle.inst, List.forall_mem_map, List.forall_mem_flatMap,
            Mangle.plain_operand_iff hp hname]
        rw [List.forall_mem_append, plain_labelLine_iff, hlabel, List.forall_mem_cons,
          Line.texts, Inst.lineFeeds_parts_eq_zero_iff hparts, hoperands, ih hrest hlater,
          List.forall_mem_cons, Inst.plain_shownTexts_iff]
        simp only [Mangle.inst, and_assoc]

/-- Alignments show no text. -/
theorem plain_alignLines (align : Int64) (fill : Bool) :
    ∀ line ∈ alignLines p align fill, ∀ text ∈ line.texts, lineFeeds text = 0 := by
  unfold alignLines
  split
  · simp
  · simp [Line.texts]

/-- The lines of a jump table show its label and those it lists. -/
theorem plain_tableLines_iff (t : JumpTable) :
    (∀ line ∈ tableLines p t, ∀ text ∈ line.texts, lineFeeds text = 0) ↔
      ∀ text ∈ t.label :: t.targets, lineFeeds text = 0 := by
  have hstart : ∀ line ∈ (if p.dataRegions then [Line.regionStart] else []), ∀ text ∈ line.texts,
      lineFeeds text = 0 := by
    split <;> simp [Line.texts]
  have hend : ∀ line ∈ (if p.dataRegions then [Line.regionEnd] else []), ∀ text ∈ line.texts,
      lineFeeds text = 0 := by
    split <;> simp [Line.texts]
  rw [tableLines]
  simp only [List.forall_mem_append, List.forall_mem_cons, List.forall_mem_map, Line.texts]
  constructor
  · rintro ⟨⟨-, ⟨hlabel, -⟩, hentries⟩, -⟩
    exact ⟨hlabel, fun target htarget => (hentries target htarget).1⟩
  · rintro ⟨hlabel, htargets⟩
    exact ⟨⟨⟨plain_alignLines 4 false, hstart⟩, ⟨hlabel, List.forall_mem_nil _⟩,
      fun target htarget => ⟨htargets target htarget, hlabel, List.forall_mem_nil _⟩⟩, hend⟩

/-- The lines that export a symbol show the symbol. -/
theorem plain_linkageLines {sym : String} (hsym : lineFeeds sym = 0) (l : Linkage) :
    ∀ line ∈ linkageLines p sym l, ∀ text ∈ line.texts, lineFeeds text = 0 := by
  unfold linkageLines
  split
  · simp [Line.texts, hsym]
  · split
    · simp [Line.texts, hsym]
    · simp [Line.texts, hsym]
  · simp

/-- The lines that open an unwind record show the function and its personality routine. -/
theorem plain_unwindOpening_iff {sym personality : String} (hsym : lineFeeds sym = 0)
    (hmodel : personality ≠ "" → UnwindStage.kindOf p.exceptions ≠ .none) :
    (∀ line ∈ unwindOpening sym (UnwindStage.record p personality), ∀ text ∈ line.texts,
      lineFeeds text = 0) ↔ lineFeeds personality = 0 := by
  by_cases hnone : personality = ""
  · cases hkind : p.exceptions <;>
      simp [unwindOpening, UnwindStage.record, UnwindStage.kindOf, hkind, hnone, hsym, Line.texts]
  · cases hkind : p.exceptions with
    | none => exact absurd (by rw [hkind]; rfl) (hmodel hnone)
    | dwarfCFI =>
      simp [unwindOpening, UnwindStage.record, UnwindStage.kindOf, hkind, hnone, Line.texts]
    | win64 =>
      simp [unwindOpening, UnwindStage.record, UnwindStage.kindOf, hkind, hnone, hsym, Line.texts]

/-- The lines of values show the symbols of the values. -/
theorem plain_valueLines_iff (hp : p.IsUsual) {data : String} {i : Nat} {values : List Datum}
    (h : valueLines p data i values = .ok lines) :
    (∀ line ∈ lines, ∀ text ∈ line.texts, lineFeeds text = 0) ↔
      ∀ v ∈ values, lineFeeds v.sym = 0 := by
  induction values generalizing i lines with
  | nil =>
    cases h
    simp
  | cons v rest ih =>
    obtain ⟨directive, later, hdirective, hlater, rfl⟩ := valueLines_cons_eq_ok h
    rw [List.forall_mem_cons, List.forall_mem_cons, ih hlater]
    simp [Line.texts, hp.lineFeeds_of_dataDirective? hdirective]

theorem plain_unwindClosing (w : Unwind) :
    ∀ line ∈ unwindClosing w, ∀ text ∈ line.texts, lineFeeds text = 0 := by
  unfold unwindClosing
  split <;> simp [Line.texts]

/-- The lines of a function's jump tables after mangling show the labels of the tables. -/
theorem plain_jumpTables_iff {f : Func} (hp : p.IsUsual)
    (hname : lineFeeds (Text.composed f.name) = 0) :
    (∀ line ∈ (Mangle.func p (Mangle.definitions p u) f).jumpTables.flatMap (tableLines p),
      ∀ text ∈ line.texts, lineFeeds text = 0) ↔
        ∀ text ∈ f.jumpTables.flatMap fun t => t.label :: t.targets, lineFeeds text = 0 := by
  have htable : ∀ t ∈ f.jumpTables,
      (∀ line ∈ tableLines p (Mangle.jumpTable p (Text.composed f.name) f.locals t),
        ∀ text ∈ line.texts, lineFeeds text = 0) ↔
          ∀ text ∈ t.label :: t.targets, lineFeeds text = 0 := by
    intro t ht
    have hlabel := Mangle.lineFeeds_label hp hname (Func.tableLabel_mem_locals ht)
    rw [plain_tableLines_iff, List.forall_mem_cons, List.forall_mem_cons]
    simp only [Mangle.jumpTable, hlabel, List.forall_mem_map, Mangle.lineFeeds_target hp hname]
  rw [List.forall_mem_flatMap, List.forall_mem_flatMap]
  simp only [Mangle.func, List.forall_mem_map]
  exact forall₂_congr htable

/-- The lines of a function after the stages have no line feed in a text exactly when the function has
none in what is shown of it. -/
theorem plain_funcLines_iff (hp : p.IsUsual) {f : Func}
    (hmodel : f.personality ≠ "" → UnwindStage.kindOf p.exceptions ≠ .none)
    (h : funcLines p ((Mangle.func p (Mangle.definitions p u) f).finished p) = .ok lines) :
    (∀ line ∈ lines, ∀ text ∈ line.texts, lineFeeds text = 0) ↔
      ∀ text ∈ f.shownTexts p.dialect, lineFeeds text = 0 := by
  obtain ⟨body, hbody, rfl⟩ := funcLines_eq_ok h
  have hsym : lineFeeds ((Mangle.func p (Mangle.definitions p u) f).finished p).emittedName =
      lineFeeds (Text.composed f.name) :=
    (congrArg lineFeeds (Mangle.emittedName_entity (Mangle.definitions p u) (.func f))).trans
      (Mangle.lineFeeds_symbolFor hp _ _)
  by_cases hname : lineFeeds (Text.composed f.name) = 0
  case neg =>
    -- the line of the function's label shows its name
    refine iff_of_false (fun hall => hname ?_) (fun hall => hname (hall _ List.mem_cons_self))
    rw [← hsym]
    refine hall (.label _) ?_ _ List.mem_cons_self
    simp
  case pos =>
    have hpersonality : lineFeeds (Mangle.func p (Mangle.definitions p u) f).personality =
        lineFeeds (Text.composed f.personality) := by
      simp only [Mangle.func]
      split
      next hnone => simp [hnone, Text.composed_of_ascii]
      next => exact Mangle.lineFeeds_reference hp f.personality
    have hmodel' : (Mangle.func p (Mangle.definitions p u) f).personality ≠ "" →
        UnwindStage.kindOf p.exceptions ≠ .none := by
      intro hne
      refine hmodel fun hnone => hne ?_
      simp [Mangle.func, hnone]
    have htype : ∀ line ∈ (if p.format = .elf then
        [Line.functionType ((Mangle.func p (Mangle.definitions p u) f).finished p).emittedName]
          else []), ∀ text ∈ line.texts, lineFeeds text = 0 := by
      split <;> simp [Line.texts, hsym, hname]
    have hopening := plain_unwindOpening_iff (hsym.trans hname) hmodel'
    have hinsts := plain_instLines_iff hp hname (fun _ hinst => hinst) hbody
    have htables := plain_jumpTables_iff (u := u) hp hname
    rw [hpersonality] at hopening
    rw [Func.plain_shownTexts_iff, List.forall_mem_append, List.forall_mem_append,
      List.forall_mem_append, List.forall_mem_append]
    constructor
    · rintro ⟨⟨⟨⟨-, hpers⟩, hbody⟩, -⟩, hjumps⟩
      exact ⟨hname, hopening.mp hpers, hinsts.mp hbody, htables.mp hjumps⟩
    · rintro ⟨-, hpers, hbody, hjumps⟩
      refine ⟨⟨⟨⟨?_, hopening.mpr hpers⟩, hinsts.mpr hbody⟩, plain_unwindClosing _⟩,
        htables.mpr hjumps⟩
      simp only [List.forall_mem_append]
      exact ⟨⟨⟨plain_alignLines _ _, plain_linkageLines (hsym.trans hname) _⟩, htype⟩,
        by simp [Line.texts, hsym, hname]⟩

/-- The lines of a data object after the stages have no line feed in a text exactly when the object has
none in what is shown of it. -/
theorem plain_dataLines_iff (hp : p.IsUsual) {d : DataObject}
    (h : dataLines p (Layout.dataObject p (Mangle.dataObject p (Mangle.definitions p u)
      (Legalize.expressible p d))) = .ok lines) :
    (∀ line ∈ lines, ∀ text ∈ line.texts, lineFeeds text = 0) ↔
      ∀ text ∈ d.shownTexts, lineFeeds text = 0 := by
  obtain ⟨body, hbody, rfl⟩ := dataLines_eq_ok h
  have hname : (Legalize.expressible p d).name = d.name := by
    unfold Legalize.expressible
    split <;> rfl
  have hsym : lineFeeds (Layout.dataObject p (Mangle.dataObject p (Mangle.definitions p u)
      (Legalize.expressible p d))).emittedName = lineFeeds (Text.composed d.name) := by
    rw [← hname]
    exact (congrArg lineFeeds
      (Mangle.emittedName_entity (Mangle.definitions p u) (.data (Legalize.expressible p d)))).trans
        (Mangle.lineFeeds_symbolFor hp _ _)
  have htype : ∀ line ∈ (if p.format = .elf then [Line.objectType (Layout.dataObject p
      (Mangle.dataObject p (Mangle.definitions p u) (Legalize.expressible p d))).emittedName]
        else []), ∀ text ∈ line.texts, lineFeeds text = lineFeeds (Text.composed d.name) := by
    split <;> simp [Line.texts, hsym]
  have hvalues : (∀ line ∈ body, ∀ text ∈ line.texts, lineFeeds text = 0) ↔
      ∀ text ∈ d.values.map fun v => Text.composed v.sym, lineFeeds text = 0 := by
    rw [plain_valueLines_iff hp hbody, List.forall_mem_map,
      ← Legalize.plain_values_expressible_iff (p := p)]
    simp only [Layout.dataObject, Mangle.dataObject, List.forall_mem_map,
      Mangle.lineFeeds_datum hp]
  rw [DataObject.shownTexts, List.forall_mem_cons, ← hvalues, List.forall_mem_append]
  constructor
  · rintro ⟨hdirectives, hbody⟩
    refine ⟨?_, hbody⟩
    rw [← hsym]
    exact hdirectives (.label _) (by simp) _ List.mem_cons_self
  · rintro ⟨hzero, hbody⟩
    refine ⟨?_, hbody⟩
    simp only [List.forall_mem_append]
    exact ⟨⟨⟨plain_alignLines _ _, plain_linkageLines (hsym.trans hzero) _⟩,
      fun line hline text htext => (htype line hline text htext).trans hzero⟩,
      by simp [Line.texts, hsym, hzero]⟩

/-- The listing of a unit after the stages has no line feed in a text exactly when the unit has none in
what is shown of it. -/
theorem plain_ofUnit_iff (hp : p.IsUsual)
    (hmodel : ∀ f ∈ u.funcs, f.personality ≠ "" → UnwindStage.kindOf p.exceptions ≠ .none)
    (h : ofUnit p (standardResult p u) = .ok lines) :
    (∀ line ∈ lines, ∀ text ∈ line.texts, lineFeeds text = 0) ↔
      ∀ text ∈ u.shownTexts p.dialect, lineFeeds text = 0 := by
  obtain ⟨funcs, data, hfuncs, hdata, rfl⟩ := ofUnit_eq_ok h
  rw [funcs_standardResult, List.mapM_map] at hfuncs
  rw [data_standardResult, List.mapM_map] at hdata
  have hfuncs' := forall_mem_flatten_of_mapM
    (P := fun line : Line => ∀ text ∈ line.texts, lineFeeds text = 0) hfuncs
    fun f hf _ hlines => plain_funcLines_iff hp (hmodel f hf) hlines
  have hdata' := forall_mem_flatten_of_mapM
    (P := fun line : Line => ∀ text ∈ line.texts, lineFeeds text = 0) hdata
    fun d _ _ hlines => plain_dataLines_iff hp hlines
  have hheader : (∀ line ∈ header p (standardResult p u), ∀ text ∈ line.texts,
      lineFeeds text = 0) ↔ lineFeeds u.name = 0 := by
    have hname : (standardResult p u).name = u.name := rfl
    rw [header, List.cons_append, List.forall_mem_cons, List.forall_mem_append, hname]
    constructor
    · rintro ⟨hbanner, -⟩
      exact hbanner _ List.mem_cons_self
    · refine fun hzero => ⟨by simpa [Line.texts] using hzero, ?_, ?_⟩
      · split <;> simp [Line.texts]
      · split <;> simp [Line.texts]
  have hfooter : ∀ line ∈ footer p, ∀ text ∈ line.texts, lineFeeds text = 0 := by
    rw [footer, List.forall_mem_append]
    constructor
    · split <;> simp [Line.texts]
    · split <;> simp [Line.texts]
  have hsection : ∀ (empty : Bool) (enter : Line), enter.texts = [] →
      ∀ line ∈ (if empty then [] else [enter]), ∀ text ∈ line.texts, lineFeeds text = 0 := by
    intro empty enter henter
    split <;> simp [henter]
  rw [CodeUnit.plain_shownTexts_iff, ← hfuncs', ← hdata', ← hheader]
  simp only [List.forall_mem_append]
  constructor
  · rintro ⟨⟨⟨⟨⟨hbanner, -⟩, hfuncs⟩, -⟩, hdata⟩, -⟩
    exact ⟨hbanner, hfuncs, hdata⟩
  · rintro ⟨hbanner, hfuncs, hdata⟩
    exact ⟨⟨⟨⟨⟨hbanner, hsection _ _ rfl⟩, hfuncs⟩, hsection _ _ rfl⟩, hdata⟩, hfooter⟩

/-- The name of a unit stands in the first line of its listing and nowhere else. -/
theorem exists_rest_of_ofUnit {w : CodeUnit} (h : ofUnit p w = .ok lines) :
    ∃ rest, ∀ name, ofUnit p { w with name } = .ok (.banner name :: rest) := by
  obtain ⟨funcs, data, hfuncs, hdata, -⟩ := ofUnit_eq_ok h
  refine ⟨(header p w).tail ++ (if w.funcs.isEmpty then [] else [.textSection]) ++ funcs.flatten ++
    (if w.data.isEmpty then [] else [.dataSection]) ++ data.flatten ++ footer p, fun name => ?_⟩
  rw [ofUnit, hfuncs, hdata]
  rfl

end Listing

/-! ## Outputs of units of one shape -/

variable {p : Profile} {o : Options} {u v : CodeUnit}

/-- After a finished run with checks a unit has a listing, and each line of the listing is one line of
the output exactly when no text that is shown of the unit has a line feed. -/
theorem exists_listing_of_finished (hp : p.IsUsual) (hverify : o.verify = true)
    (h : (runStages p o Stage.standard u).ending = .finished) :
    ∃ lines, Listing.ofUnit p (runStages p o Stage.standard u).unit = .ok lines ∧
      (lineFeeds (Listing.render p lines) = lines.length ↔
        ∀ text ∈ u.shownTexts p.dialect, '\n' ∉ text.toList) := by
  obtain ⟨text, htext⟩ := exists_assemblyText_of_finished hp hverify h
  obtain ⟨lines, hlines, -⟩ := map_eq_ok_iff.mp htext
  refine ⟨lines, hlines, ?_⟩
  rw [(unit_of_finished h).1] at hlines
  rw [Listing.lineFeeds_render_eq_length_iff hp,
    Listing.plain_ofUnit_iff hp (legalized_of_finished hverify h).2 hlines]
  simp only [Text.lineFeeds_eq_zero_iff]

/-- Two units of one shape, which differ in their texts and numbers at most, that both pass the standard
stages with checks, on any platform. Their listings have the same lines up to the texts in them. The
output of each has as many lines as its listing exactly when no text that is shown of the unit has a line
feed; so where neither has one, the outputs have the same number of lines. If the units differ in their
names alone, their listings differ in the first line alone. -/
theorem lines_of_same_skeleton {b : Bucket} {c : Conventions} (hp : Profile.ofBucket b c = .ok p)
    (hverify : o.verify = true) (hshape : u.skeleton = v.skeleton)
    (hu : (runStages p o Stage.standard u).ending = .finished)
    (hv : (runStages p o Stage.standard v).ending = .finished) :
    ∃ lines lines',
      assemblyText p (runStages p o Stage.standard u).unit = .ok (Listing.render p lines) ∧
      assemblyText p (runStages p o Stage.standard v).unit = .ok (Listing.render p lines') ∧
      lines.map Line.form = lines'.map Line.form ∧
      (lineFeeds (Listing.render p lines) = lines.length ↔
        ∀ text ∈ u.shownTexts p.dialect, '\n' ∉ text.toList) ∧
      (lineFeeds (Listing.render p lines') = lines'.length ↔
        ∀ text ∈ v.shownTexts p.dialect, '\n' ∉ text.toList) ∧
      ((∀ text ∈ u.shownTexts p.dialect ++ v.shownTexts p.dialect, '\n' ∉ text.toList) →
        lineFeeds (Listing.render p lines) = lineFeeds (Listing.render p lines')) ∧
      (v = { u with name := v.name } →
        ∃ rest, lines = .banner u.name :: rest ∧ lines' = .banner v.name :: rest) := by
  have husual := Profile.isUsual_of_ofBucket hp
  obtain ⟨lines, hlines, hcount⟩ := exists_listing_of_finished husual hverify hu
  obtain ⟨lines', hlines', hcount'⟩ := exists_listing_of_finished husual hverify hv
  have hforms : lines.map Line.form = lines'.map Line.form := by
    rw [(unit_of_finished hu).1] at hlines
    rw [(unit_of_finished hv).1] at hlines'
    exact Listing.map_form_congr (skeleton_standardResult_congr hshape) hlines hlines'
  refine ⟨lines, lines', ?_, ?_, hforms, hcount, hcount', fun hclean => ?_, fun hrenamed => ?_⟩
  · rw [assemblyText, hlines]
    rfl
  · rw [assemblyText, hlines']
    rfl
  · obtain ⟨hclean, hclean'⟩ := List.forall_mem_append.mp hclean
    have hlength : lines.length = lines'.length := by
      simpa using congrArg List.length hforms
    rw [hcount.mpr hclean, hcount'.mpr hclean', hlength]
  · rw [(unit_of_finished hu).1] at hlines
    rw [(unit_of_finished hv).1] at hlines'
    -- no stage looks at the name of the unit
    have hresult : standardResult p v = { standardResult p u with name := v.name } := by
      rw [hrenamed]
      rfl
    obtain ⟨rest, hrest⟩ := Listing.exists_rest_of_ofUnit hlines
    refine ⟨rest, ?_, ?_⟩
    · exact Except.ok.inj (hlines.symm.trans (hrest u.name))
    · rw [hresult] at hlines'
      exact Except.ok.inj (hlines'.symm.trans (hrest v.name))

/-- A unit of one function, which jumps by a table and calls a routine from elsewhere, and of one
pointer to the function. -/
def callingUnit (unit function label table routine : String) : CodeUnit :=
  { name := unit
    sourceFile := unit ++ ".c"
    funcs := [{
      name := function, linkage := .global, personality := routine
      insts := [
        { op := "call", suffix := "q", operands := [{ kind := .sym, sym := routine }] },
        { op := "jmp", operands := [{ kind := .label, sym := label }] },
        { label := label, op := "ret" }]
      jumpTables := [{ label := table, targets := [label] }] }]
    data := [{ name := unit, linkage := .hidden, values := [{ size := 8, sym := function }] }] }

/-- The run of the standard stages over a unit on the host, with checks. -/
def checkedRun (u : CodeUnit) : StageRun :=
  runStages Profile.host { verify := true } Stage.standard u

/-- Two such units that have no text in common come out with the same number of lines. -/
theorem calling_units_confined :
    ∃ u v text text', u = callingUnit "one" "main" "done" "table" "puts" ∧
      v = callingUnit "other" "start" "end" "jumps" "write" ∧ u.skeleton = v.skeleton ∧
      (checkedRun u).ending = .finished ∧ (checkedRun v).ending = .finished ∧
      assemblyText Profile.host (checkedRun u).unit = .ok text ∧
      assemblyText Profile.host (checkedRun v).unit = .ok text' ∧
      lineFeeds text = lineFeeds text' := by
  have hskeleton : (callingUnit "one" "main" "done" "table" "puts").skeleton =
      (callingUnit "other" "start" "end" "jumps" "write").skeleton := by decide +kernel
  have hrun : (checkedRun (callingUnit "one" "main" "done" "table" "puts")).ending = .finished := by
    decide +kernel
  have hrun' : (checkedRun (callingUnit "other" "start" "end" "jumps" "write")).ending =
      .finished := by
    decide +kernel
  have hclean : ∀ text ∈
      (callingUnit "one" "main" "done" "table" "puts").shownTexts Profile.host.dialect ++
        (callingUnit "other" "start" "end" "jumps" "write").shownTexts Profile.host.dialect,
      '\n' ∉ text.toList := by
    decide +kernel
  obtain ⟨lines, lines', htext, htext', -, -, -, hsame, -⟩ :=
    lines_of_same_skeleton Profile.ofTriple_host rfl hskeleton hrun hrun'
  exact ⟨_, _, _, _, rfl, rfl, hskeleton, hrun, hrun', htext, htext', hsame hclean⟩

/-- A line feed in the name of a unit puts a line of the name's choice into the output, behind the
comment that shows the name. -/
theorem name_injects_line :
    ({ name := "one" } : CodeUnit).skeleton = ({ name := "one\n\thlt" } : CodeUnit).skeleton ∧
      (checkedRun { name := "one" }).ending = .finished ∧
      (checkedRun { name := "one\n\thlt" }).ending = .finished ∧
      assemblyText Profile.host (checkedRun { name := "one" }).unit =
        .ok ("# mcemit unit one (x86_64/elf/generic/default)\n" ++
          "\t.section\t.note.GNU-stack,\"\",@progbits\n") ∧
      assemblyText Profile.host (checkedRun { name := "one\n\thlt" }).unit =
        .ok ("# mcemit unit one\n" ++ "\thlt (x86_64/elf/generic/default)\n" ++
          "\t.section\t.note.GNU-stack,\"\",@progbits\n") ∧
      (assemblyText Profile.host (checkedRun { name := "one" }).unit).map lineFeeds = .ok 2 ∧
      (assemblyText Profile.host (checkedRun { name := "one\n\thlt" }).unit).map lineFeeds = .ok 3 := by
  decide +kernel

end CodeEmission
