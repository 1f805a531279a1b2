import CodeEmission.Proofs.CodeUnit.WellFormed
import CodeEmission.Proofs.Mangle.Separation
import CodeEmission.Proofs.Platform.Conventions
import CodeEmission.Proofs.Text.Composed

/-!
# What the Stages Keep

Every standard stage changes the entities of a unit one by one, and leaves well-formed entities
well-formed. Legalization, layout and the unwind records keep the kinds and symbols of entities as
well, so the checks find the same problems before and after them. Mangling gives new symbols, and
there the checks can find that two of them are the same, and nothing else.

* `Legalize.verify_run`, `Layout.verify_run`, `UnwindStage.verify_run`: the checks answer as before.
* `Mangle.isRedefinition_of_mem_problems`: what the checks find after mangling are clashes of symbols.
* `Legalize.check_run` and `Layout.check_run`: a stage's own check passes after the stage.
-/

namespace CodeEmission

variable {p : Profile} {u : CodeUnit}

/-- A unit that passes the checks has well-formed entities. -/
theorem wellFormed_of_verify (h : verify (some u) = .ok ()) {e : Entity} (he : e ∈ u.entities) :
    e.WellFormed :=
  Entity.faults_eq_nil_iff.mp ((Entity.problems_eq_nil_iff.mp (verify_eq_ok_iff.mp h).2).1 e he).2

/-- The checks answer alike before and after a change of the entities that keeps their kinds and
symbols and leaves them well-formed. -/
theorem verify_eq_of_map {v : CodeUnit} {change : Entity → Entity} (hunit : v.name = u.name)
    (hentities : v.entities = u.entities.map change) (hkind : ∀ e, (change e).kind = e.kind)
    (hname : ∀ e, (change e).emittedName = e.emittedName)
    (hwell : ∀ e ∈ u.entities, e.WellFormed) (hkeep : ∀ e, e.WellFormed → (change e).WellFormed) :
    verify (some v) = verify (some u) := by
  have hboth : ∀ e ∈ u.entities, e.WellFormed ∧ (change e).WellFormed :=
    fun e he => ⟨hwell e he, hkeep e (hwell e he)⟩
  have hproblems : v.problems = u.problems := by
    have hsame := Entity.problems_map hkind hname hboth []
    rw [List.map_nil] at hsame
    rw [CodeUnit.problems, CodeUnit.problems, hunit, hentities, hsame]
  rw [verify, verify, hproblems]

/-! ## Legalization -/

/-- No value of eight bytes is left where such values are split. -/
theorem size_ne_eight_of_mem_splitQuads {values : List Datum} {v : Datum}
    (h : v ∈ splitQuads values) : v.size ≠ 8 := by
  obtain ⟨w, -, hv⟩ := List.mem_flatMap.mp h
  unfold Datum.split at hv
  split at hv
  next hsize =>
    rw [List.mem_singleton.mp hv]
    exact hsize
  next =>
    have hhalf : (4 : Int64) ≠ 8 := by decide
    split at hv
    · rcases List.mem_pair.mp hv with rfl | rfl
      · exact hhalf
      · exact hhalf
    · rcases List.mem_pair.mp hv with rfl | rfl
      · exact hhalf
      · exact hhalf

/-- The values that stand for a well-formed one are well-formed. -/
theorem Datum.WellFormed.split {v : Datum} (h : v.WellFormed) {w : Datum} (hw : w ∈ v.split) :
    w.WellFormed := by
  unfold Datum.split at hw
  split at hw
  · exact List.mem_singleton.mp hw ▸ h
  · -- both halves have four bytes, which is room enough for a symbol
    have hroom : (4 : Int64) ≤ 4 := by decide
    have hwidth : (4 : Int64) = 1 ∨ (4 : Int64) = 2 ∨ (4 : Int64) = 4 ∨ (4 : Int64) = 8 :=
      .inr (.inr (.inl rfl))
    split at hw
    · rcases List.mem_pair.mp hw with rfl | rfl
      · exact ⟨hwidth, .inr hroom⟩
      · exact ⟨hwidth, .inl rfl⟩
    · rcases List.mem_pair.mp hw with rfl | rfl
      · exact ⟨hwidth, .inl rfl⟩
      · exact ⟨hwidth, .inl rfl⟩

namespace Legalize

/-- An entity whose values the target can express. -/
def entity (p : Profile) : Entity → Entity
  | .func f => .func f
  | .data d => .data (expressible p d)

theorem entities_run : (run p u).unit.entities = u.entities.map (entity p) := by
  simp [CodeUnit.entities, run, Function.comp_def, entity]

@[simp]
theorem name_expressible (d : DataObject) : (expressible p d).name = d.name := by
  unfold expressible
  split <;> rfl

@[simp]
theorem linkage_expressible (d : DataObject) : (expressible p d).linkage = d.linkage := by
  unfold expressible
  split <;> rfl

@[simp]
theorem emittedName_expressible (d : DataObject) :
    (expressible p d).emittedName = d.emittedName := by
  unfold expressible
  split <;> rfl

@[simp]
theorem kind_entity (e : Entity) : (entity p e).kind = e.kind := by
  cases e <;> rfl

@[simp]
theorem name_entity (e : Entity) : (entity p e).name = e.name := by
  cases e <;> simp [entity, Entity.name]

@[simp]
theorem linkage_entity (e : Entity) : (entity p e).linkage = e.linkage := by
  cases e <;> simp [entity, Entity.linkage]

theorem wellFormed_expressible {d : DataObject} (h : d.WellFormed) :
    (expressible p d).WellFormed := by
  unfold expressible
  split
  · exact h
  · refine { h with values := fun w hw => ?_ }
    obtain ⟨v, hv, hw⟩ := List.mem_flatMap.mp hw
    exact (h.values v hv).split hw

/-- A unit passes the checks after legalization when it did before. -/
theorem verify_run (h : ∀ e ∈ u.entities, e.WellFormed) :
    verify (some (run p u).unit) = verify (some u) := by
  refine verify_eq_of_map rfl entities_run kind_entity (fun e => ?_) h fun e he => ?_
  · cases e with
    | func f => rfl
    | data d => exact emittedName_expressible d
  · cases e with
    | func f => exact he
    | data d => exact wellFormed_expressible he

/-- Where there is no directive for them, no value is eight bytes wide after legalization. -/
theorem wideDatum?_expressible (hnarrow : p.hasData64 = false) (d : DataObject) :
    wideDatum? (expressible p d) = none := by
  rw [expressible, if_neg (by simp [hnarrow]), wideDatum?, Option.map_eq_none_iff,
    List.find?_eq_none]
  rintro ⟨v, i⟩ hv
  have hmem := List.mem_of_getElem? (List.mem_zipIdx_iff_getElem?.mp hv)
  simpa using size_ne_eight_of_mem_splitQuads hmem

/-- Nothing is left to refuse after a legalization that refused nothing. -/
theorem check_run (hfaults : (run p u).faults = []) :
    check p (run p u).unit = none := by
  -- functions are not changed, and what is asked of them was asked by the stage as well
  have hfuncs : u.funcs.findSome? (·.symbolBaseFault? p) = none := by
    rw [List.findSome?_eq_none_iff]
    intro f hf
    have hfault := List.flatMap_eq_nil_iff.mp (List.append_eq_nil_iff.mp hfaults).1 f hf
    simpa using (List.append_eq_nil_iff.mp hfault).2
  simp only [check, run, hfuncs]
  split
  next => rfl
  next hnarrow =>
    rw [List.findSome?_eq_none_iff]
    intro d' hd'
    obtain ⟨d, -, rfl⟩ := List.mem_map.mp hd'
    exact wideDatum?_expressible (by simpa using hnarrow) d

end Legalize

/-! ## Mangling -/

namespace Mangle

theorem privateSymbol_injective (p : Profile) (f : Func) :
    Function.Injective (f.privateSymbol p) := fun _ _ h =>
  (String.append_right_inj _).mp h

theorem privateSymbol_ne_empty (p : Profile) (f : Func) (name : String) :
    f.privateSymbol p name ≠ "" := by
  simp [Func.privateSymbol]

/-- A local name has a private symbol. -/
theorem localSymbol?_of_mem {f : Func} {name : String} (h : name ∈ f.locals) :
    localSymbol? p (Text.composed f.name) f.locals name = some (f.privateSymbol p name) := by
  have hne := Func.ne_empty_of_mem_locals h
  simp only [localSymbol?, List.contains_iff_mem]
  exact if_pos ⟨hne, h⟩

/-- A private symbol belongs to a local name. -/
theorem localSymbol?_eq_some {f : Func} {name symbol : String}
    (h : localSymbol? p (Text.composed f.name) f.locals name = some symbol) :
    name ∈ f.locals ∧ symbol = f.privateSymbol p name := by
  unfold localSymbol? at h
  split at h
  next hlocal => exact ⟨List.contains_iff_mem.mp hlocal.2, (Option.some.inj h).symm⟩
  next => cases h

/-- A reference to a name leads to a symbol: to one that is made of a composed name. -/
theorem reference_ne_empty {name : String} (h : name ≠ "") :
    reference p (definitions p u) name ≠ "" := by
  have hcomposed := Text.composed_ne_empty h
  unfold reference
  dsimp only
  split
  next d hfind =>
    -- the definition that was found is that of an entity with the composed name
    have hmem := List.mem_reverse.mp (List.mem_of_find?_eq_some hfind)
    have hsame : d.1 = Text.composed name := by simpa using List.find?_some hfind
    rw [definitions_eq_map_entities] at hmem
    obtain ⟨e, -, rfl⟩ := List.mem_map.mp hmem
    dsimp only at hsame ⊢
    simp [symbolFor, hsame, hcomposed]
  next => simp [hcomposed]

/-- What an operand may refer to: a symbol of the unit, or a label of its function. -/
theorem wellFormed_operand {f : Func} {op : Operand} (h : op.WellFormed f.locals) :
    (operand p (definitions p u) (Text.composed f.name) f.locals op).WellFormed
      (f.locals.map (f.privateSymbol p)) := by
  -- a name that is not local is looked up in the unit, and has a symbol either way
  have hsymbol : ∀ name : String, name ≠ "" →
      (localSymbol? p (Text.composed f.name) f.locals name).getD
        (reference p (definitions p u) name) ≠ "" := by
    intro name hname
    cases hlocal : localSymbol? p (Text.composed f.name) f.locals name with
    | none => exact reference_ne_empty hname
    | some symbol =>
      obtain ⟨-, rfl⟩ := localSymbol?_eq_some hlocal
      exact privateSymbol_ne_empty p f name
  unfold operand
  cases hkind : op.kind with
  | reg => simpa [Operand.WellFormed, hkind] using h
  | imm => simp [Operand.WellFormed, hkind]
  | sym =>
    have hname : op.sym ≠ "" := by simpa [Operand.WellFormed, hkind] using h
    simpa [Operand.WellFormed, hkind, hname] using hsymbol op.sym hname
  | label =>
    have hlocal : op.sym ∈ f.locals := by simpa only [Operand.WellFormed, hkind] using h
    simp only [Operand.WellFormed, localSymbol?_of_mem hlocal, Option.getD_some]
    exact List.mem_map_of_mem hlocal
  | mem =>
    have haddress : op.base ≠ "" ∨ op.sym ≠ "" := by simpa [Operand.WellFormed, hkind] using h
    by_cases hname : op.sym = ""
    · simpa [Operand.WellFormed, hkind, hname] using haddress
    · simp only [Operand.WellFormed, hname, if_false]
      exact .inr (hsymbol op.sym hname)
  | other text => simp [Operand.WellFormed, hkind] at h

theorem wellFormed_inst {f : Func} {i : Inst} (h : i.WellFormed f.locals) :
    (inst p (definitions p u) (Text.composed f.name) f.locals i).WellFormed
      (f.locals.map (f.privateSymbol p)) where
  op := h.op
  operands := by
    intro op' hop'
    obtain ⟨op, hop, rfl⟩ := List.mem_map.mp hop'
    exact wellFormed_operand (h.operands op hop)
  encoding := h.encoding

theorem wellFormed_jumpTable {f : Func} {t : JumpTable} (ht : t ∈ f.jumpTables)
    (h : t.WellFormed f.labels) :
    (jumpTable p (Text.composed f.name) f.locals t).label = f.privateSymbol p t.label ∧
      (jumpTable p (Text.composed f.name) f.locals t).WellFormed
        (f.labels.map (f.privateSymbol p)) := by
  have htable : t.label ∈ f.locals := Func.tableLabel_mem_locals ht h.label
  have hlabel : (jumpTable p (Text.composed f.name) f.locals t).label = f.privateSymbol p t.label := by
    rw [jumpTable, localSymbol?_of_mem htable, Option.getD_some]
  refine ⟨hlabel, hlabel ▸ privateSymbol_ne_empty p f _, ?_, ?_⟩
  · simpa [jumpTable] using h.targets_ne_nil
  · intro target' htarget'
    obtain ⟨target, htarget, rfl⟩ := List.mem_map.mp htarget'
    have hmem := h.targets target htarget
    rw [localSymbol?_of_mem (List.mem_append_left _ hmem), Option.getD_some]
    exact List.mem_map_of_mem hmem

/-- A mangled function is well-formed: its local names are mangled alike where they are defined and
where they are used, and by an injective function. -/
theorem wellFormed_func {f : Func} (h : f.WellFormed) :
    (func p (definitions p u) f).WellFormed where
  linkage := h.linkage
  align := h.align
  locals := by
    have htables : (func p (definitions p u) f).jumpTables.map JumpTable.label =
        (f.jumpTables.map JumpTable.label).map (f.privateSymbol p) := by
      simp only [func, List.map_map]
      exact List.map_congr_left fun t ht => (wellFormed_jumpTable ht (h.tables t ht)).1
    rw [labels_func, htables, ← List.map_append]
    exact h.locals.map (privateSymbol_injective p f)
  tables := by
    intro t' ht'
    obtain ⟨t, ht, rfl⟩ := List.mem_map.mp ht'
    rw [labels_func]
    exact (wellFormed_jumpTable ht (h.tables t ht)).2
  insts := by
    intro i' hi'
    obtain ⟨i, hi, rfl⟩ := List.mem_map.mp hi'
    rw [locals_func]
    exact wellFormed_inst (h.insts i hi)

theorem wellFormed_dataObject {d : DataObject} (h : d.WellFormed) (defs : List (String × String)) :
    (dataObject p defs d).WellFormed where
  linkage := h.linkage
  align := h.align
  values := by
    intro v' hv'
    obtain ⟨v, hv, rfl⟩ := List.mem_map.mp hv'
    have hvalue := h.values v hv
    unfold datum
    split
    next => exact hvalue
    -- the value had a symbol before, so there is room for one
    next hname => exact ⟨hvalue.1, .inr (hvalue.2.resolve_left hname)⟩

/-- A unit of well-formed entities has well-formed entities after mangling. -/
theorem wellFormed_mangled (h : ∀ e ∈ u.entities, e.WellFormed) {e : Entity}
    (he : e ∈ (mangled p u).entities) : e.WellFormed := by
  rw [entities_mangled] at he
  obtain ⟨source, hsource, rfl⟩ := List.mem_map.mp he
  cases source with
  | func f => exact wellFormed_func (h _ hsource)
  | data d => exact wellFormed_dataObject (h _ hsource) _

/-- Of a unit with named, well-formed entities, only symbols clash after mangling. -/
theorem isRedefinition_of_mem_problems (hunit : u.name ≠ "")
    (h : ∀ e ∈ u.entities, e.name ≠ "" ∧ e.WellFormed) {q : Problem}
    (hq : q ∈ (mangled p u).problems) : q.IsRedefinition (mangled p u).entities := by
  have hname : (mangled p u).name ≠ "" := hunit
  rw [CodeUnit.problems, if_neg hname, List.nil_append] at hq
  have hentities : ∀ e ∈ (mangled p u).entities, e.emittedName ≠ "" ∧ e.WellFormed := by
    intro e' he'
    refine ⟨?_, wellFormed_mangled (fun e he => (h e he).2) he'⟩
    rw [entities_mangled] at he'
    obtain ⟨e, he, rfl⟩ := List.mem_map.mp he'
    rw [emittedName_entity]
    simp [symbolFor, Text.composed_ne_empty (h e he).1]
  exact Entity.isRedefinition_of_mem_problems hentities hq

end Mangle

/-! ## Layout -/

namespace Layout

/-- An entity in its section. -/
def entity (p : Profile) : Entity → Entity
  | .func f => .func (func p f)
  | .data d => .data (dataObject p d)

theorem entities_run : (run p u).unit.entities = u.entities.map (entity p) := by
  simp [CodeUnit.entities, run, Function.comp_def, entity]

/-- The widest of well-formed values is as wide as a value can be. -/
theorem isAlignment_widest {values : List Datum} (h : ∀ v ∈ values, v.WellFormed) :
    isAlignment (widest values) = true := by
  -- the fold passes from one admissible width to another
  have hfold : ∀ align : Int64, isAlignment align = true → isAlignment
      (values.foldl (fun align v => if align < v.size then v.size else align) align) = true := by
    induction values with
    | nil => exact fun align halign => halign
    | cons v rest ih =>
      intro align halign
      obtain ⟨hv, hrest⟩ := List.forall_mem_cons.mp h
      refine ih hrest _ ?_
      dsimp only
      split
      · rcases hv.1 with hsize | hsize | hsize | hsize <;> rw [hsize] <;> decide
      · exact halign
  exact hfold 1 (by decide)

theorem wellFormed_func {f : Func} (h : f.WellFormed) : (func p f).WellFormed := by
  refine { h with align := ?_ }
  by_cases hdefault : f.align = 0
  · simp only [func, hdefault, if_true]
    decide
  · simpa only [func, hdefault, if_false] using h.align

theorem wellFormed_dataObject {d : DataObject} (h : d.WellFormed) :
    (dataObject p d).WellFormed := by
  refine { h with align := ?_ }
  by_cases hdefault : d.align = 0
  · simpa only [dataObject, hdefault, if_true] using isAlignment_widest h.values
  · simpa only [dataObject, hdefault, if_false] using h.align

theorem wellFormed_entity {e : Entity} (h : e.WellFormed) : (entity p e).WellFormed := by
  cases e with
  | func f => exact wellFormed_func h
  | data d => exact wellFormed_dataObject h

/-- The checks find the same before and after layout. -/
theorem verify_run (h : ∀ e ∈ u.entities, e.WellFormed) :
    verify (some (run p u).unit) = verify (some u) := by
  refine verify_eq_of_map rfl entities_run ?_ ?_ h fun e => wellFormed_entity
  · intro e
    cases e <;> rfl
  · intro e
    cases e <;> rfl

/-- Everything has a section after layout. -/
theorem check_run (hp : p.IsUsual) : check p (run p u).unit = none := by
  have hfuncs : (run p u).unit.funcs.find? (fun f => f.section_ = "") = none := by
    rw [List.find?_eq_none]
    intro f' hf'
    obtain ⟨f, -, rfl⟩ := List.mem_map.mp hf'
    simp [func, hp.textSection_ne_empty]
  have hdata : (run p u).unit.data.find? (fun d => d.section_ = "") = none := by
    rw [List.find?_eq_none]
    intro d' hd'
    obtain ⟨d, -, rfl⟩ := List.mem_map.mp hd'
    simp [dataObject, hp.dataSection_ne_empty]
  rw [check, hfuncs, hdata]
  rfl

end Layout

/-! ## Unwind records -/

namespace UnwindStage

/-- An entity with its unwind record. -/
def entity (p : Profile) : Entity → Entity
  | .func f => .func { f with unwind := record p f.personality }
  | .data d => .data d

theorem entities_run : (run p u).unit.entities = u.entities.map (entity p) := by
  simp [CodeUnit.entities, run, Function.comp_def, entity]

/-- The checks do not look at unwind records. -/
theorem verify_run (h : ∀ e ∈ u.entities, e.WellFormed) :
    verify (some (run p u).unit) = verify (some u) := by
  refine verify_eq_of_map rfl entities_run ?_ ?_ h ?_
  · intro e
    cases e <;> rfl
  · intro e
    cases e <;> rfl
  · intro e he
    cases e with
    | func f => exact { he with }
    | data d => exact he

end UnwindStage

end CodeEmission
