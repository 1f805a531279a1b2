import CodeEmission.Proofs.Pipeline.DataAgreement
import CodeEmission.Proofs.Pipeline.Exports

/-!
# No Internal Reference Dangles

An object refers to symbols by its relocations and by its unwind records. Each of these references
comes from a place of the source: the operand that an instruction is relocated for, a value with a
symbol, or the personality routine of a function. Where that place names something of the unit
itself, the object defines the symbol that it refers to.

* `Origin` is such a place, and `Origin.IsInternal` says that it names something of the unit.
* `Object.map_symbol_relocs` and `Object.unwind_of_assemble`: what an object refers to, read off the
  unit that was assembled.
* `Mangle.symbolic?_inst`: mangling changes what an instruction is relocated for and not whether it
  is relocated.
* `Origin.mem_definedNames`: a place that names something of the unit gets a name that the mangled
  unit defines.
* `internal_references_defined`: the references of an object are those of its source, in order, and
  the internal ones are against symbols that the object defines.
-/

namespace CodeEmission

/-! ## References of an assembled unit -/

/-- Numbering things changes nothing that is read off the things. -/
theorem flatMap_zipIdx_fst {α β : Type} (g : α → List β) (as : List α) :
    (as.zipIdx.flatMap fun numbered => g numbered.1) = as.flatMap g := by
  rw [← List.flatMap_map Prod.fst g, List.zipIdx_map_fst]

section Assembled

variable {p : Profile} {loc : Nat} {c : Chunk}

/-- An instruction is relocated for the first of its operands that has a symbol. -/
theorem map_symbol_of_instRelocs {i : Nat} {inst : Inst} {bytes : List UInt8} {relocs : List Reloc}
    (h : instRelocs p i loc inst bytes = .ok relocs) :
    relocs.map Reloc.symbol = (inst.symbolic?.map Operand.sym).toList := by
  unfold instRelocs at h
  split at h
  next hnone => rw [← Except.ok.inj h, hnone]; rfl
  next op hop =>
    split at h
    · cases h
    · obtain ⟨r, hr, rfl⟩ := map_eq_ok_iff.mp h
      unfold operandReloc at hr
      split at hr
      · cases hr
      · rw [← Except.ok.inj hr, hop]
        split <;> rfl

theorem map_symbol_of_funcChunk {f : Func} (h : funcChunk p loc f = .ok c) :
    c.relocs.map Reloc.symbol = f.insts.filterMap fun inst => inst.symbolic?.map Operand.sym := by
  obtain ⟨fill, start, body, tables, -, -, -, -, hbody, htables, rfl⟩ := funcChunk_eq_ok h
  have hmember : ∀ loc (numbered : Inst × Nat) piece, instChunk p loc numbered = .ok piece →
      piece.relocs.map Reloc.symbol = (numbered.1.symbolic?.map Operand.sym).toList := by
    rintro loc ⟨inst, i⟩ piece hpiece
    obtain ⟨bytes, relocs, -, hrelocs, rfl⟩ := instChunk_eq_ok hpiece
    exact map_symbol_of_instRelocs hrelocs
  have hinsts := Chunk.flatMap_of_concat (fun c => c.relocs.map Reloc.symbol) rfl
    (fun a b => List.map_append) hmember hbody
  simp only [Chunk.relocs_append, relocs_of_tables htables, List.nil_append, List.append_nil]
  rw [hinsts, flatMap_zipIdx_fst fun inst : Inst => (inst.symbolic?.map Operand.sym).toList,
    List.filterMap_eq_flatMap_toList]

theorem map_symbol_of_dataChunk {d : DataObject} (h : dataChunk p loc d = .ok c) :
    c.relocs.map Reloc.symbol = (d.values.filter fun v => v.sym ≠ "").map Datum.sym := by
  obtain ⟨fill, start, body, -, -, -, -, hbody, rfl⟩ := dataChunk_eq_ok h
  have hmember : ∀ loc (numbered : Datum × Nat) piece, valueChunk loc numbered = .ok piece →
      piece.relocs.map Reloc.symbol = ([numbered.1].filter fun v => v.sym ≠ "").map Datum.sym := by
    rintro loc ⟨v, i⟩ piece hpiece
    rcases valueChunk_eq_ok hpiece with ⟨hplain, bytes, -, rfl⟩ | ⟨hsymbol, -, rfl⟩
    · simp [hplain]
    · simp [hsymbol]
  have hvalues := Chunk.flatMap_of_concat (fun c => c.relocs.map Reloc.symbol) rfl
    (fun a b => List.map_append) hmember hbody
  simp only [Chunk.relocs_append, List.nil_append]
  rw [hvalues, ← List.map_flatMap, ← List.filter_flatMap, flatMap_zipIdx_fst fun v => [v],
    List.flatMap_singleton']

/-- A function's chunk has the unwind records of the function. -/
theorem unwind_of_funcChunk {f : Func} (h : funcChunk p loc f = .ok c) :
    c.unwind = f.unwindRecords := by
  obtain ⟨fill, start, body, tables, -, -, -, -, hbody, htables, rfl⟩ := funcChunk_eq_ok h
  -- neither instructions nor tables bring records, so the function's own are all there are
  have hjoin : ∀ (loc : Nat) (a b : Chunk), a.unwind = [] → b.unwind = [] →
      (a.append b).unwind = [] := by
    intro loc a b ha hb
    simp [Chunk.append, ha, hb]
  have hbodyNone : body.unwind = [] := by
    refine Chunk.concat_induction (P := fun _ c => c.unwind = []) (fun _ => rfl) ?_ hjoin hbody
    rintro loc ⟨inst, i⟩ piece hpiece
    obtain ⟨bytes, relocs, -, -, rfl⟩ := instChunk_eq_ok hpiece
    rfl
  have htablesNone : tables.unwind = [] := by
    refine Chunk.concat_induction (P := fun _ c => c.unwind = []) (fun _ => rfl) ?_ hjoin htables
    intro loc t piece hpiece
    obtain ⟨entries, -, rfl⟩ := tableChunk_eq_ok hpiece
    rfl
  simp [Chunk.append, hbodyNone, htablesNone]

namespace Object

variable {u : CodeUnit} {obj : Object}

/-- The relocations of an object are for the symbols of its instructions and then of its values. -/
theorem map_symbol_relocs (h : assemble p u = .ok obj) :
    (obj.sections.flatMap Section.relocs).map Reloc.symbol =
      (u.funcs.flatMap fun f => f.insts.filterMap fun inst => inst.symbolic?.map Operand.sym) ++
        u.data.flatMap fun d => (d.values.filter fun v => v.sym ≠ "").map Datum.sym := by
  obtain ⟨text, data, htext, hdata, rfl⟩ := assemble_eq_ok h
  have htextSymbols := Chunk.flatMap_of_concat (f := funcChunk p) (fun c => c.relocs.map Reloc.symbol)
    rfl (fun a b => List.map_append) (fun _ _ _ => map_symbol_of_funcChunk) htext
  have hdataSymbols := Chunk.flatMap_of_concat (f := dataChunk p) (fun c => c.relocs.map Reloc.symbol)
    rfl (fun a b => List.map_append) (fun _ _ _ => map_symbol_of_dataChunk) hdata
  simp only [List.flatMap_append, relocs_of_concat _ htext, relocs_of_concat _ hdata,
    List.map_append]
  rw [htextSymbols, hdataSymbols]

/-- The unwind records of an object are those of its functions. -/
theorem unwind_of_assemble (h : assemble p u = .ok obj) :
    obj.unwind = u.funcs.flatMap Func.unwindRecords := by
  obtain ⟨text, data, htext, -, rfl⟩ := assemble_eq_ok h
  exact Chunk.flatMap_of_concat (f := funcChunk p) Chunk.unwind rfl (fun _ _ => rfl)
    (fun _ _ _ => unwind_of_funcChunk) htext

end Object

end Assembled

/-! ## References of a source unit -/

/-- Where a reference comes from: an operand of a function, a value, or the personality routine of a
function. -/
inductive Origin where
  | operand (f : Func) (op : Operand)
  | value (v : Datum)
  | personality (name : String)
  deriving DecidableEq, Repr

namespace CodeUnit

/-- The places that ask for a relocation: of each instruction the first operand with a symbol, and
then the values with a symbol. -/
def relocOrigins (u : CodeUnit) : List Origin :=
  (u.funcs.flatMap fun f => f.insts.filterMap fun inst => inst.symbolic?.map (.operand f)) ++
    u.data.flatMap fun d => (d.values.filter fun v => v.sym ≠ "").map .value

/-- The personality routines that functions have. -/
def personalityOrigins (u : CodeUnit) : List Origin :=
  (u.funcs.filter fun f => f.personality ≠ "").map fun f => .personality f.personality

/-- A function or data object of the unit has a name with the same composed form. -/
def Names (u : CodeUnit) (name : String) : Prop :=
  ∃ e ∈ u.entities, Text.composed e.name = Text.composed name

end CodeUnit

namespace Origin

/-- The place names something of the unit: a label of the function around it, or an entity. -/
def IsInternal (u : CodeUnit) : Origin → Prop
  | operand f op =>
    (op.kind = .sym ∨ op.kind = .label ∨ op.kind = .mem) ∧ (op.sym ∈ f.locals ∨ u.Names op.sym)
  | value v => u.Names v.sym
  | personality name => u.Names name

/-- The symbol that mangling puts at the place. -/
def symbol (p : Profile) (u : CodeUnit) : Origin → String
  | operand f op =>
    (Mangle.operand p (Mangle.definitions p u) (Text.composed f.name) f.locals op).sym
  | value v => Mangle.reference p (Mangle.definitions p u) v.sym
  | personality name => Mangle.reference p (Mangle.definitions p u) name

end Origin

/-- An object has a symbol of a name with a place in one of its sections. -/
def Object.Defines (obj : Object) (name : String) : Prop :=
  ∃ s ∈ obj.symbols, s.name = name ∧ s.isDefined = true

section Stages

variable {p : Profile} {u : CodeUnit}

/-- Legalization changes no definition. -/
theorem Mangle.definitions_legalized :
    definitions p (Legalize.run p u).unit = definitions p u := by
  simp [definitions, Legalize.run, Function.comp_def]

namespace Mangle

/-- An operand has a symbol after mangling when it had one before. -/
theorem sym_operand_eq_empty_iff {f : Func} {op : Operand} :
    (operand p (definitions p u) (Text.composed f.name) f.locals op).sym = "" ↔ op.sym = "" := by
  -- a local name gets a symbol of its own, and any other is left to `other`
  have hsymbol : ∀ other : String, (other = "" ↔ op.sym = "") →
      ((localSymbol? p (Text.composed f.name) f.locals op.sym).getD other = "" ↔ op.sym = "") := by
    intro other hother
    cases hlocal : localSymbol? p (Text.composed f.name) f.locals op.sym with
    | none => exact hother
    | some symbol =>
      obtain ⟨hmem, rfl⟩ := localSymbol?_eq_some hlocal
      simp [privateSymbol_ne_empty, Func.ne_empty_of_mem_locals hmem]
  unfold operand
  split
  · exact hsymbol op.sym Iff.rfl
  · split
    next => exact Iff.rfl
    next hname => exact hsymbol _ (by simp [reference_ne_empty hname, hname])
  · split
    next => exact Iff.rfl
    next hname => exact hsymbol _ (by simp [reference_ne_empty hname, hname])
  · exact Iff.rfl

/-- A mangled instruction is relocated for the operand that it was relocated for, mangled. -/
theorem symbolic?_inst {f : Func} (i : Inst) :
    (inst p (definitions p u) (Text.composed f.name) f.locals i).symbolic? =
      i.symbolic?.map (operand p (definitions p u) (Text.composed f.name) f.locals) := by
  simp only [Inst.symbolic?, inst, List.find?_map, Function.comp_def, ne_eq,
    sym_operand_eq_empty_iff]

/-- The symbols that the values of a mangled data object refer to. -/
theorem map_sym_dataObject (d : DataObject) :
    ((dataObject p (definitions p u) d).values.filter fun v => v.sym ≠ "").map Datum.sym =
      (d.values.filter fun v => v.sym ≠ "").map fun v => reference p (definitions p u) v.sym := by
  simp only [dataObject]
  -- by induction on the values, since mangling keeps which of them have a symbol
  induction d.values with
  | nil => rfl
  | cons v rest ih =>
    by_cases hname : v.sym = ""
    · rw [List.map_cons, List.filter_cons_of_neg (by simp [datum, hname]), ih,
        List.filter_cons_of_neg (by simp [hname])]
    · rw [List.map_cons, List.filter_cons_of_pos (by simp [datum, hname, reference_ne_empty hname]),
        List.map_cons, ih, List.filter_cons_of_pos (by simp [hname]), List.map_cons, datum,
        if_neg hname]

end Mangle

/-- The halves of a value refer to what the value refers to, once. -/
theorem map_sym_split (v : Datum) :
    (v.split.filter fun w => w.sym ≠ "").map Datum.sym =
      ([v].filter fun w => w.sym ≠ "").map Datum.sym := by
  unfold Datum.split
  split
  · rfl
  · split
    next hname => simp [hname]
    next hname => simp [not_not.mp hname]

/-- Legalization keeps the symbols that values refer to. -/
theorem Legalize.map_sym_expressible (d : DataObject) :
    ((expressible p d).values.filter fun v => v.sym ≠ "").map Datum.sym =
      (d.values.filter fun v => v.sym ≠ "").map Datum.sym := by
  unfold expressible
  split
  · rfl
  · simp only [splitQuads, List.filter_flatMap, List.map_flatMap, map_sym_split]
    rw [← List.map_flatMap, ← List.filter_flatMap, List.flatMap_singleton']

/-- The functions after all stages. -/
theorem funcs_standardResult :
    (standardResult p u).funcs = u.funcs.map fun f =>
      { Layout.func p (Mangle.func p (Mangle.definitions p u) f) with
        unwind := UnwindStage.record p (Mangle.func p (Mangle.definitions p u) f).personality } := by
  simp only [standardResult, afterMangling, UnwindStage.run, Layout.run, Mangle.mangled,
    Mangle.definitions_legalized, List.map_map]
  rfl

/-- The data objects after all stages. -/
theorem data_standardResult :
    (standardResult p u).data = u.data.map fun d =>
      Layout.dataObject p (Mangle.dataObject p (Mangle.definitions p u)
        (Legalize.expressible p d)) := by
  simp only [standardResult, afterMangling, UnwindStage.run, Layout.run, Mangle.mangled,
    Mangle.definitions_legalized, List.map_map]
  simp only [Legalize.run, List.map_map]
  rfl

/-- After the stages the unit asks for the relocations that its source asks for, in order, against
the mangled symbols. -/
theorem map_symbol_relocOrigins :
    ((standardResult p u).funcs.flatMap fun f =>
        f.insts.filterMap fun inst => inst.symbolic?.map Operand.sym) ++
      ((standardResult p u).data.flatMap fun d =>
        (d.values.filter fun v => v.sym ≠ "").map Datum.sym) =
      u.relocOrigins.map (Origin.symbol p u) := by
  have hfunc : ∀ f : Func, ((Layout.func p (Mangle.func p (Mangle.definitions p u) f)).insts.filterMap
      fun inst => inst.symbolic?.map Operand.sym) =
        f.insts.filterMap fun inst =>
          inst.symbolic?.map fun op => (Origin.operand f op).symbol p u := by
    intro f
    simp only [Layout.func, Mangle.func, List.filterMap_map, Function.comp_def,
      Mangle.symbolic?_inst, Option.map_map]
    rfl
  have hdata : ∀ d : DataObject, (((Layout.dataObject p (Mangle.dataObject p
      (Mangle.definitions p u) (Legalize.expressible p d))).values.filter
        fun v => v.sym ≠ "").map Datum.sym) =
        (d.values.filter fun v => v.sym ≠ "").map fun v => (Origin.value v).symbol p u := by
    intro d
    -- mangling looks at symbols only, so it may as well come before the splitting
    have hsymbols := congrArg (List.map (Mangle.reference p (Mangle.definitions p u)))
      (Legalize.map_sym_expressible (p := p) d)
    rw [List.map_map, List.map_map] at hsymbols
    exact (Mangle.map_sym_dataObject _).trans hsymbols
  rw [funcs_standardResult, data_standardResult, List.flatMap_map, List.flatMap_map]
  simp only [hfunc, hdata]
  rw [CodeUnit.relocOrigins, List.map_append, List.map_flatMap, List.map_flatMap]
  simp [List.map_filterMap, Function.comp_def]

/-- The expression for a personality routine refers to the routine, whatever its form. -/
theorem symbols_personalityExpr (p : Profile) (name : String) :
    (p.personalityExpr name).symbols = [name] := by
  unfold Profile.personalityExpr
  split <;> rfl

/-- A function's unwind record refers to the personality routine, if it has one and exceptions have a
model. -/
theorem personalitySyms_of_record (f : Func) :
    (Func.unwindRecords { f with unwind := UnwindStage.record p f.personality }).flatMap
        UnwindRecord.personalitySyms =
      if f.personality = "" ∨ UnwindStage.kindOf p.exceptions = .none then []
      else [f.personality] := by
  unfold Func.unwindRecords UnwindStage.record
  by_cases hplain : f.personality = "" ∨ UnwindStage.kindOf p.exceptions = .none
  · simp only [if_pos hplain]
    split <;> rfl
  · obtain ⟨hname, hmodel⟩ := not_or.mp hplain
    simp [hname, hmodel, symbols_personalityExpr]

/-- Where the stages refuse no personality routine, the unwind records after them refer to the
personality routines of the source, in order, by their mangled symbols. -/
theorem personalitySyms_standardResult
    (h : ∀ f ∈ u.funcs, f.personality ≠ "" → UnwindStage.kindOf p.exceptions ≠ .none) :
    ((standardResult p u).funcs.flatMap Func.unwindRecords).flatMap UnwindRecord.personalitySyms =
      u.personalityOrigins.map (Origin.symbol p u) := by
  have hfunc : ∀ f ∈ u.funcs, (Func.unwindRecords
      { Layout.func p (Mangle.func p (Mangle.definitions p u) f) with
        unwind := UnwindStage.record p (Mangle.func p (Mangle.definitions p u) f).personality }).flatMap
          UnwindRecord.personalitySyms =
        ([f].filter fun f => f.personality ≠ "").map fun f =>
          (Origin.personality f.personality).symbol p u := by
    intro f hf
    -- a routine keeps having a name under mangling, so no record is lost or gained
    refine (personalitySyms_of_record
      (Layout.func p (Mangle.func p (Mangle.definitions p u) f))).trans ?_
    by_cases hname : f.personality = ""
    · simp [Layout.func, Mangle.func, hname]
    · have hne := Mangle.reference_ne_empty (p := p) (u := u) hname
      simp [Layout.func, Mangle.func, hname, hne, h f hf hname, Origin.symbol]
  rw [funcs_standardResult, List.flatMap_map, List.flatMap_assoc, List.flatMap_congr hfunc,
    ← List.map_flatMap, ← List.filter_flatMap, List.flatMap_singleton',
    CodeUnit.personalityOrigins, List.map_map]
  rfl

/-! ## Definitions of a mangled unit -/

namespace Mangle

/-- A spelling of an entity's name refers to a symbol that the mangled unit defines. -/
theorem reference_mem_definedNames {name : String} (h : u.Names name) :
    reference p (definitions p u) name ∈ (mangled p u).definedNames := by
  obtain ⟨e, he, hname⟩ := h
  -- references go by composed form, and end at the last entity that has it
  have hsame : reference p (definitions p u) name = reference p (definitions p u) e.name := by
    simp only [reference, hname]
  obtain ⟨k, hk⟩ := List.mem_iff_getElem?.mp he
  obtain ⟨j, last, -, hj, -, hreference, -⟩ := reference_eq_last (p := p) hk
  have hmem : entity p (definitions p u) last ∈ (mangled p u).entities := by
    rw [entities_mangled]
    exact List.mem_map_of_mem (List.mem_of_getElem? hj)
  rw [hsame, hreference, ← emittedName_entity (definitions p u) last]
  -- functions and data objects stand in different parts of the list
  rcases List.mem_append.mp hmem with hmem | hmem
  · obtain ⟨f, hf, hsource⟩ := List.mem_map.mp hmem
    rw [← hsource]
    exact List.mem_append_left _ (List.mem_flatMap.mpr ⟨f, hf, List.mem_cons_self⟩)
  · obtain ⟨d, hd, hsource⟩ := List.mem_map.mp hmem
    rw [← hsource]
    exact List.mem_append_right _ (List.mem_map_of_mem hd)

/-- The private symbol of a local name is defined in the mangled unit. -/
theorem privateSymbol_mem_definedNames {f : Func} (hf : f ∈ u.funcs) {name : String}
    (h : name ∈ f.locals) : f.privateSymbol p name ∈ (mangled p u).definedNames := by
  have hlocal : f.privateSymbol p name ∈ (func p (definitions p u) f).locals := by
    rw [locals_func]
    exact List.mem_map_of_mem h
  refine List.mem_append_left _ (List.mem_flatMap.mpr
    ⟨func p (definitions p u) f, List.mem_map_of_mem hf, List.mem_cons_of_mem _ ?_⟩)
  rcases List.mem_append.mp hlocal with hlabel | htable
  · exact List.mem_append_left _ hlabel
  · exact List.mem_append_right _ (List.mem_of_mem_filter htable)

/-- An operand that names something of the unit gets a symbol that the mangled unit defines. A label
operand names a label of its function if it is well-formed. -/
theorem sym_operand_mem_definedNames {f : Func} (hf : f ∈ u.funcs) {op : Operand}
    (hop : op.WellFormed f.locals) (hsym : op.sym ≠ "")
    (h : (Origin.operand f op).IsInternal u) :
    (Origin.operand f op).symbol p u ∈ (mangled p u).definedNames := by
  obtain ⟨hkind, hname⟩ := h
  have hlocal : op.sym ∈ f.locals → ∀ other, (localSymbol? p (Text.composed f.name) f.locals
      op.sym).getD other ∈ (mangled p u).definedNames := by
    intro hmem other
    rw [localSymbol?_of_mem hmem, Option.getD_some]
    exact privateSymbol_mem_definedNames hf hmem
  -- a label of the function comes first, also where an entity has the same name
  have houter : (localSymbol? p (Text.composed f.name) f.locals op.sym).getD
      (reference p (definitions p u) op.sym) ∈ (mangled p u).definedNames := by
    by_cases hmem : op.sym ∈ f.locals
    · exact hlocal hmem _
    · rw [localSymbol?_eq_none _ hmem, Option.getD_none]
      exact reference_mem_definedNames (hname.resolve_left hmem)
  unfold Origin.symbol operand
  -- label operands have no second choice, but a well-formed one does not need it
  rcases hkind with hkind | hkind | hkind
  · simpa [hkind, hsym] using houter
  · have hmem : op.sym ∈ f.locals := by simpa [Operand.WellFormed, hkind] using hop
    simpa [hkind] using hlocal hmem op.sym
  · simpa [hkind, hsym] using houter

end Mangle

end Stages

/-! ## References of the object of a source -/

/-- Lists whose members are read alike are related member by member, and with what holds of the first
list's members. -/
theorem forall₂_of_map_eq {α β γ : Type} {as : List α} {bs : List β} {read : β → γ} {expect : α → γ}
    (h : bs.map read = as.map expect) {P : α → Prop} (hP : ∀ a ∈ as, P a) :
    List.Forall₂ (fun a b => P a ∧ read b = expect a) as bs := by
  induction as generalizing bs with
  | nil =>
    rw [List.map_nil, List.map_eq_nil_iff] at h
    exact h ▸ .nil
  | cons a rest ih =>
    obtain ⟨b, later, rfl, hhead, hlater⟩ := List.map_eq_cons_iff.mp h
    obtain ⟨ha, hrest⟩ := List.forall_mem_cons.mp hP
    exact .cons ⟨ha, hhead⟩ (ih hlater hrest)

section Finished

variable {p : Profile} {o : Options} {u : CodeUnit}

/-- What a finished run with checks says of its first and of its last stage: the legalized unit
passes, and every function with a personality routine has an exception model. -/
theorem legalized_of_finished (hverify : o.verify = true)
    (h : (runStages p o Stage.standard u).ending = .finished) :
    verify (some (Legalize.run p u).unit) = .ok () ∧
      ∀ f ∈ u.funcs, f.personality ≠ "" → UnwindStage.kindOf p.exceptions ≠ .none := by
  rw [Stage.standard] at h
  obtain ⟨hlegalize, h, -⟩ := runStages_cons_finished h
  obtain ⟨-, h, -⟩ := runStages_cons_finished h
  obtain ⟨-, h, -⟩ := runStages_cons_finished h
  obtain ⟨hunwind, -, -⟩ := runStages_cons_finished h
  refine ⟨(Stage.failure?_eq_none hlegalize).2 hverify, fun f hf hname hmodel => ?_⟩
  -- the stage would have refused the personality routine under its mangled name
  have hfaults := List.filterMap_eq_nil_iff.mp (Stage.failure?_eq_none hunwind).1
  have hmem : Layout.func p (Mangle.func p (Mangle.definitions p (Legalize.run p u).unit) f) ∈
      (Layout.run p (Mangle.mangled p (Legalize.run p u).unit)).unit.funcs :=
    List.mem_map_of_mem (List.mem_map_of_mem hf)
  have hfault := hfaults _ hmem
  have hpersonality := Mangle.reference_ne_empty (p := p) (u := (Legalize.run p u).unit) hname
  simp [UnwindStage.fault?, Layout.func, Mangle.func, hname, hpersonality, hmodel] at hfault

/-- Legalization changes neither what is internal nor the symbols that mangling gives. -/
theorem Origin.isInternal_legalized {origin : Origin} :
    origin.IsInternal (Legalize.run p u).unit ↔ origin.IsInternal u := by
  have hnames : ∀ name, (Legalize.run p u).unit.Names name ↔ u.Names name := by
    intro name
    simp [CodeUnit.Names, Legalize.entities_run]
  cases origin <;> simp only [IsInternal, hnames]

theorem Origin.symbol_legalized (origin : Origin) :
    origin.symbol p (Legalize.run p u).unit = origin.symbol p u := by
  cases origin <;> simp only [symbol, Mangle.definitions_legalized]

/-- An operand that an instruction is relocated for belongs to its function. -/
theorem CodeUnit.exists_inst_of_mem_relocOrigins {f : Func} {op : Operand}
    (h : Origin.operand f op ∈ u.relocOrigins ++ u.personalityOrigins) :
    f ∈ u.funcs ∧ ∃ inst ∈ f.insts, inst.symbolic? = some op := by
  simp only [relocOrigins, personalityOrigins, List.mem_append, List.mem_flatMap, List.mem_filterMap,
    List.mem_map, Option.map_eq_some_iff, reduceCtorEq, and_false, exists_false, or_false] at h
  obtain ⟨g, hg, inst, hinst, _, hop, hsame⟩ := h
  obtain ⟨rfl, rfl⟩ := Origin.operand.inj hsame
  exact ⟨hg, inst, hinst, hop⟩

/-- A place that names something of the unit gets a name that the unit defines after the stages. -/
theorem Origin.mem_definedNames (hverify : verify (some (Legalize.run p u).unit) = .ok ())
    {origin : Origin} (horigin : origin ∈ u.relocOrigins ++ u.personalityOrigins)
    (h : origin.IsInternal u) : origin.symbol p u ∈ (standardResult p u).definedNames := by
  rw [standardResult, Mangle.definedNames_afterMangling, ← symbol_legalized]
  rw [← isInternal_legalized (p := p)] at h
  cases origin with
  | operand f op =>
    obtain ⟨hf, inst, hinst, hop⟩ := CodeUnit.exists_inst_of_mem_relocOrigins horigin
    have hwell := Func.faults_eq_nil_iff.mp (func_faults_of_verify hverify hf)
    have hmem : op ∈ inst.operands := List.mem_of_find?_eq_some hop
    have hsym : op.sym ≠ "" := by simpa using List.find?_some hop
    exact Mangle.sym_operand_mem_definedNames (u := (Legalize.run p u).unit) hf
      ((hwell.insts inst hinst).operands op hmem) hsym h
  | value v => exact Mangle.reference_mem_definedNames h
  | personality name => exact Mangle.reference_mem_definedNames h

/-- After a finished run of the standard stages with checks, the relocations of the object are those
that its source asks for, in order, and so are the symbols of its unwind records; each is against the
mangled name of what it comes from. One that comes from a place which names a label of the function
around it, or an entity of the unit in any spelling, is against a symbol that the object defines. -/
theorem internal_references_defined {b : Bucket} {c : Conventions} {obj : Object}
    (hp : Profile.ofBucket b c = .ok p) (hverify : o.verify = true)
    (hrun : (runStages p o Stage.standard u).ending = .finished)
    (hobj : Object.assemble p (runStages p o Stage.standard u).unit = .ok obj) :
    List.Forall₂ (fun origin (r : Reloc) => r.symbol = origin.symbol p u ∧
        (origin.IsInternal u → obj.Defines r.symbol))
      u.relocOrigins (obj.sections.flatMap Section.relocs) ∧
    List.Forall₂ (fun origin name => name = origin.symbol p u ∧
        (origin.IsInternal u → obj.Defines name))
      u.personalityOrigins (obj.unwind.flatMap UnwindRecord.personalitySyms) := by
  obtain ⟨hunit, -⟩ := unit_of_finished hrun
  obtain ⟨hlegal, hmodel⟩ := legalized_of_finished hverify hrun
  rw [hunit] at hobj
  -- the object defines what the unit defines, so internal places are against defined symbols
  have hdefined : ∀ origin ∈ u.relocOrigins ++ u.personalityOrigins, origin.IsInternal u →
      obj.Defines (origin.symbol p u) := by
    intro origin horigin hinternal
    have hmem := Origin.mem_definedNames hlegal horigin hinternal
    rw [← Object.map_name_filter_isDefined (Profile.isUsual_of_ofBucket hp) hobj] at hmem
    obtain ⟨s, hs, hname⟩ := List.mem_map.mp hmem
    exact ⟨s, (List.mem_filter.mp hs).1, hname, (List.mem_filter.mp hs).2⟩
  have hrelocs := (Object.map_symbol_relocs hobj).trans map_symbol_relocOrigins
  have hunwind : obj.unwind.flatMap UnwindRecord.personalitySyms =
      u.personalityOrigins.map (Origin.symbol p u) := by
    rw [Object.unwind_of_assemble hobj, personalitySyms_standardResult hmodel]
  constructor
  · refine (forall₂_of_map_eq hrelocs fun origin horigin =>
      hdefined origin (List.mem_append_left _ horigin)).imp ?_
    rintro origin r ⟨hdefines, hsymbol⟩
    exact ⟨hsymbol, hsymbol ▸ hdefines⟩
  · refine (forall₂_of_map_eq ((List.map_id _).trans hunwind) fun origin horigin =>
      hdefined origin (List.mem_append_right _ horigin)).imp ?_
    rintro origin name ⟨hdefines, hsymbol⟩
    rw [id_eq] at hsymbol
    exact ⟨hsymbol, hsymbol ▸ hdefines⟩

end Finished

/-- A function that is its own personality routine. It refers to its jump table, to one of its labels
and to a name from elsewhere. -/
def dispatcher : Func :=
  { name := "K", linkage := .global, personality := "K"
    insts := [
      { op := "lea", encoding := "8d 05 00 00 00 00"
        operands := [{ kind := .reg, reg := "eax" }, { kind := .mem, sym := "table" }] },
      { op := "jmp", encoding := "e9 00 00 00 00", operands := [{ kind := .label, sym := "done" }] },
      { op := "call", encoding := "e8 00 00 00 00", operands := [{ kind := .sym, sym := "outside" }] },
      { label := "done", op := "ret", encoding := "c3" }]
    jumpTables := [{ label := "table", targets := ["done"] }] }

/-- A unit with that function and a pointer to it under another spelling of its name. -/
def dispatching : CodeUnit :=
  { name := "dispatching"
    funcs := [dispatcher]
    data := [{ name := "handlers", linkage := .hidden, values := [{ size := 8, sym := "\u212a" }] }] }

/-- The run of the standard stages over it, on the platform where the pointer is split. -/
def dispatchRun : StageRun :=
  runStages narrowProfile { verify := true } Stage.standard dispatching

/-- All references but the one to the name from elsewhere are against symbols of the object. -/
theorem dispatching_references_defined :
    ∃ obj, Profile.ofBucket narrowBucket {} = .ok narrowProfile ∧ dispatchRun.ending = .finished ∧
      Object.assemble narrowProfile dispatchRun.unit = .ok obj ∧
      (obj.sections.flatMap Section.relocs).map Reloc.symbol =
        ["LK_table", "LK_done", "_outside", "_K"] ∧
      obj.Defines "LK_table" ∧ obj.Defines "LK_done" ∧ obj.Defines "_K" := by
  obtain ⟨hrun, hsymbols⟩ : dispatchRun.ending = .finished ∧
      (Object.assemble narrowProfile dispatchRun.unit).toOption.map
        (fun obj => (obj.sections.flatMap Section.relocs).map Reloc.symbol) =
          some ["LK_table", "LK_done", "_outside", "_K"] := by decide +kernel
  have horigins : dispatching.relocOrigins = [
      .operand dispatcher { kind := .mem, sym := "table" },
      .operand dispatcher { kind := .label, sym := "done" },
      .operand dispatcher { kind := .sym, sym := "outside" },
      .value { size := 8, sym := "\u212a" }] := by decide +kernel
  have hnamed : dispatching.Names "\u212a" := ⟨.func dispatcher, by decide, by decide +kernel⟩
  cases hobj : Object.assemble narrowProfile dispatchRun.unit with
  | error e =>
    rw [hobj] at hsymbols
    cases hsymbols
  | ok obj =>
    rw [hobj] at hsymbols
    replace hsymbols : (obj.sections.flatMap Section.relocs).map Reloc.symbol =
      ["LK_table", "LK_done", "_outside", "_K"] := Option.some.inj hsymbols
    have hreferences :=
      (internal_references_defined (b := narrowBucket) (c := {}) rfl rfl hrun hobj).1
    rw [horigins] at hreferences
    -- the relocations one by one, each with what is known of it
    obtain ⟨table, _, ⟨-, htable⟩, hrest, hrelocs⟩ := List.forall₂_cons_left_iff.mp hreferences
    obtain ⟨label, _, ⟨-, hlabel⟩, hlater, rfl⟩ := List.forall₂_cons_left_iff.mp hrest
    obtain ⟨outside, _, -, hlast, rfl⟩ := List.forall₂_cons_left_iff.mp hlater
    obtain ⟨pointer, _, ⟨-, hpointer⟩, -, rfl⟩ := List.forall₂_cons_left_iff.mp hlast
    have hnames := hsymbols
    rw [hrelocs] at hnames
    simp only [List.map_cons, List.cons.injEq] at hnames
    obtain ⟨htableName, hlabelName, -, hpointerName, -⟩ := hnames
    exact ⟨obj, rfl, hrun, rfl, hsymbols,
      htableName ▸ htable ⟨by decide, .inl (by decide +kernel)⟩,
      hlabelName ▸ hlabel ⟨by decide, .inl (by decide +kernel)⟩,
      hpointerName ▸ hpointer hnamed⟩

end CodeEmission
