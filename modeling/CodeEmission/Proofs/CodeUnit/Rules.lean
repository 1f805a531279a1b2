import CodeEmission.Proofs.CodeUnit.WellFormed
import Mathlib.Algebra.Group.Int.Defs

/-!
# The Rules for Units

What a unit has to be like, rule by rule and without a word about how it is checked.
`CodeUnit.WellFormed` lists the rules, and `verify_eq_ok_iff_wellFormed` says that the structural
checks decide them: they refuse nothing that follows the rules and pass nothing that does not.

The checks keep lists of names as they go and skip what cannot be checked any more, such as the
targets of a table without a label. The rules do neither.

* `isAlignment_iff`, `fixupFits_iff`, `Linkage.mem_known_iff`: the conditions on single fields.
* `Func.wellFormed_iff`: the rules for one function.
-/

namespace CodeEmission

/-- The linkages that mean something. -/
def Linkage.known : List Linkage :=
  [global, internal, hidden, weak]

namespace CodeUnit

/-- The linkages of all functions, then of all data objects. -/
def linkages (u : CodeUnit) : List Linkage :=
  u.funcs.map Func.linkage ++ u.data.map DataObject.linkage

/-- The alignments of all functions, then of all data objects. -/
def aligns (u : CodeUnit) : List Int64 :=
  u.funcs.map Func.align ++ u.data.map DataObject.align

end CodeUnit

/-- The labels that a function gives, to instructions and then to jump tables. -/
def Func.givenLabels (f : Func) : List String :=
  f.labels ++ f.jumpTables.map JumpTable.label

/-- The symbol field of an instruction is the end of its machine code, or it starts at a positive
offset and ends within `length` bytes. Where it ends is computed as a 64-bit word, so an offset just
below the largest word wraps and counts as inside. -/
def Inst.HasFixupIn (length : Nat) (inst : Inst) : Prop :=
  inst.fixupOffset = 0 ∨ (0 < inst.fixupOffset ∧ inst.fixupOffset + 4 ≤ Int64.ofNat length)

/-- Whether the symbol field ends within some bytes can be computed. -/
instance (length : Nat) (inst : Inst) : Decidable (inst.HasFixupIn length) :=
  inferInstanceAs (Decidable (_ ∨ _))

example : Inst.HasFixupIn 1 { op := "ret", fixupOffset := 0x7fffffffffffffff } := by decide

/-- A unit follows the rules. -/
structure CodeUnit.WellFormed (u : CodeUnit) : Prop where
  /-- The unit has a name. -/
  name : u.name ≠ ""
  /-- Every function and data object has a symbol. -/
  symbols : ∀ symbol ∈ u.emittedNames, symbol ≠ ""
  /-- No two of them have the same. -/
  distinct : u.emittedNames.Nodup
  /-- Every linkage is one of the four. -/
  linkages : ∀ linkage ∈ u.linkages, linkage ∈ Linkage.known
  /-- Every alignment is none or a power of two of at most 32 bits. -/
  aligns : ∀ align ∈ u.aligns, align = 0 ∨ ∃ k ≤ 31, align.toInt = 2 ^ k
  /-- No two labels of a function are the same, be it of instructions or of jump tables. -/
  labels : ∀ f ∈ u.funcs, f.givenLabels.Nodup
  /-- Every jump table has a label and lists labels of instructions of its function, at least one. -/
  tables : ∀ f ∈ u.funcs, ∀ t ∈ f.jumpTables, t.WellFormed f.labels
  /-- Every instruction has an operation. -/
  operations : ∀ f ∈ u.funcs, ∀ inst ∈ f.insts, inst.op ≠ ""
  /-- Every operand is of a known kind and has what its kind needs. -/
  operands : ∀ f ∈ u.funcs, ∀ inst ∈ f.insts, ∀ op ∈ inst.operands, op.WellFormed f.givenLabels
  /-- Machine code, if there is any, can be read and holds the symbol field. -/
  encodings : ∀ f ∈ u.funcs, ∀ inst ∈ f.insts, inst.encoding ≠ "" →
    ∃ bytes, decodeEncoding inst.encoding = .ok bytes ∧ inst.HasFixupIn bytes.length
  /-- Every value has a width of data, and a symbol has room in it. -/
  values : ∀ d ∈ u.data, ∀ v ∈ d.values, v.WellFormed

/-! ## Single fields -/

theorem Linkage.mem_known_iff {l : Linkage} : l ∈ known ↔ ∀ text, l ≠ .other text := by
  cases l <;> simp [known]

theorem isAlignment_iff {align : Int64} :
    isAlignment align = true ↔ align = 0 ∨ ∃ k ≤ 31, align.toInt = 2 ^ k := by
  simp only [isAlignment, Bool.or_eq_true, decide_eq_true_eq, List.any_eq_true, List.mem_range]
  -- the search goes over the exponents below 32
  have hbound : ∀ k, k < 32 ↔ k ≤ 31 := fun k => Nat.lt_succ_iff
  simp only [hbound, Nat.pow_eq, Int.natCast_pow]
  rfl

theorem fixupFits_iff {inst : Inst} {length : Nat} :
    fixupFits inst.fixupOffset length = true ↔ inst.HasFixupIn length := by
  simp only [fixupFits, Bool.or_eq_true, Bool.and_eq_true, decide_eq_true_eq, Inst.HasFixupIn]
  by_cases hzero : inst.fixupOffset = 0
  · simp [hzero]
  · -- a place that is not zero is positive as soon as it is not negative
    have hpositive : 0 ≤ inst.fixupOffset ↔ 0 < inst.fixupOffset := by
      rw [Int64.le_iff_toInt_le, Int64.lt_iff_toInt_lt, Int64.toInt_zero]
      have hne : inst.fixupOffset.toInt ≠ 0 := by
        intro hint
        apply hzero
        exact Int64.toInt.inj (hint.trans Int64.toInt_zero.symm)
      omega
    simp only [hzero, false_or, hpositive]

/-! ## Functions -/

/-- Where jump tables have labels, the names that are local to a function are the labels it gives. -/
theorem Func.givenLabels_eq_locals {f : Func} (h : ∀ t ∈ f.jumpTables, t.label ≠ "") :
    f.givenLabels = f.locals := by
  rw [givenLabels, locals, tableLabels, List.filter_eq_self.mpr]
  intro label hlabel
  obtain ⟨t, ht, rfl⟩ := List.mem_map.mp hlabel
  simpa using h t ht

/-- A function without faults follows the rules for functions. -/
theorem Func.wellFormed_iff {f : Func} :
    f.WellFormed ↔ f.linkage ∈ Linkage.known ∧
      (f.align = 0 ∨ ∃ k ≤ 31, f.align.toInt = 2 ^ k) ∧ f.givenLabels.Nodup ∧
      (∀ t ∈ f.jumpTables, t.WellFormed f.labels) ∧
      ∀ inst ∈ f.insts, inst.op ≠ "" ∧ (∀ op ∈ inst.operands, op.WellFormed f.givenLabels) ∧
        (inst.encoding ≠ "" →
          ∃ bytes, decodeEncoding inst.encoding = .ok bytes ∧ inst.HasFixupIn bytes.length) := by
  rw [Linkage.mem_known_iff, ← isAlignment_iff]
  simp only [← fixupFits_iff]
  constructor
  · intro h
    have hlocals := givenLabels_eq_locals fun t ht => (h.tables t ht).label
    refine ⟨h.linkage, h.align, h.locals, h.tables, fun inst hinst => ?_⟩
    rw [hlocals]
    exact ⟨(h.insts inst hinst).op, (h.insts inst hinst).operands, (h.insts inst hinst).encoding⟩
  · rintro ⟨hlinkage, halign, hnodup, htables, hinsts⟩
    have hlocals := givenLabels_eq_locals fun t ht => (htables t ht).label
    rw [hlocals] at hinsts
    refine ⟨hlinkage, halign, hnodup, htables, fun inst hinst => ?_⟩
    obtain ⟨hop, hoperands, hencoding⟩ := hinsts inst hinst
    exact ⟨hop, hoperands, hencoding⟩

/-- A data object without faults follows the rules for data objects. -/
theorem DataObject.wellFormed_iff {d : DataObject} :
    d.WellFormed ↔ d.linkage ∈ Linkage.known ∧
      (d.align = 0 ∨ ∃ k ≤ 31, d.align.toInt = 2 ^ k) ∧ ∀ v ∈ d.values, v.WellFormed := by
  rw [Linkage.mem_known_iff, ← isAlignment_iff]
  constructor
  · exact fun h => ⟨h.linkage, h.align, h.values⟩
  · exact fun ⟨hlinkage, halign, hvalues⟩ => ⟨hlinkage, halign, hvalues⟩

/-! ## Units -/

namespace CodeUnit

theorem map_emittedName_entities (u : CodeUnit) :
    u.entities.map Entity.emittedName = u.emittedNames := by
  rw [entities, List.map_append, List.map_map, List.map_map]
  rfl

theorem forall_mem_entities {u : CodeUnit} {P : Entity → Prop} :
    (∀ e ∈ u.entities, P e) ↔ (∀ f ∈ u.funcs, P (.func f)) ∧ ∀ d ∈ u.data, P (.data d) := by
  simp only [entities, List.forall_mem_append, List.forall_mem_map]

/-- A unit has a name and no problems when it follows the rules. -/
theorem wellFormed_iff {u : CodeUnit} :
    u.WellFormed ↔ u.name ≠ "" ∧ (∀ symbol ∈ u.emittedNames, symbol ≠ "") ∧
      u.emittedNames.Nodup ∧ ∀ e ∈ u.entities, e.WellFormed := by
  rw [forall_mem_entities]
  show _ ↔ _ ∧ _ ∧ _ ∧ (∀ f ∈ u.funcs, f.WellFormed) ∧ ∀ d ∈ u.data, d.WellFormed
  simp only [Func.wellFormed_iff, DataObject.wellFormed_iff]
  constructor
  · intro h
    obtain ⟨hfuncLinkage, hdataLinkage⟩ := List.forall_mem_append.mp h.linkages
    obtain ⟨hfuncAlign, hdataAlign⟩ := List.forall_mem_append.mp h.aligns
    refine ⟨h.name, h.symbols, h.distinct, fun f hf => ?_, fun d hd => ?_⟩
    · exact ⟨hfuncLinkage _ (List.mem_map_of_mem hf), hfuncAlign _ (List.mem_map_of_mem hf),
        h.labels f hf, h.tables f hf, fun inst hinst =>
          ⟨h.operations f hf inst hinst, h.operands f hf inst hinst, h.encodings f hf inst hinst⟩⟩
    · exact ⟨hdataLinkage _ (List.mem_map_of_mem hd), hdataAlign _ (List.mem_map_of_mem hd),
        h.values d hd⟩
  · rintro ⟨hname, hsymbols, hdistinct, hfuncs, hdata⟩
    constructor
    case name => exact hname
    case symbols => exact hsymbols
    case distinct => exact hdistinct
    case linkages =>
      refine List.forall_mem_append.mpr ⟨?_, ?_⟩
      · exact List.forall_mem_map.mpr fun f hf => (hfuncs f hf).1
      · exact List.forall_mem_map.mpr fun d hd => (hdata d hd).1
    case aligns =>
      refine List.forall_mem_append.mpr ⟨?_, ?_⟩
      · exact List.forall_mem_map.mpr fun f hf => (hfuncs f hf).2.1
      · exact List.forall_mem_map.mpr fun d hd => (hdata d hd).2.1
    case labels => exact fun f hf => (hfuncs f hf).2.2.1
    case tables => exact fun f hf => (hfuncs f hf).2.2.2.1
    case operations => exact fun f hf inst hinst => ((hfuncs f hf).2.2.2.2 inst hinst).1
    case operands => exact fun f hf inst hinst => ((hfuncs f hf).2.2.2.2 inst hinst).2.1
    case encodings => exact fun f hf inst hinst => ((hfuncs f hf).2.2.2.2 inst hinst).2.2
    case values => exact fun d hd => (hdata d hd).2.2

end CodeUnit

/-- The structural checks pass exactly the units that follow the rules, and never the lack of a
unit. -/
theorem verify_eq_ok_iff_wellFormed (unit : Option CodeUnit) :
    verify unit = .ok () ↔ ∃ u ∈ unit, u.WellFormed := by
  match unit with
  | none => simp [verify]
  | some u =>
    rw [verify_eq_ok_iff, Entity.problems_eq_nil_iff, CodeUnit.map_emittedName_entities]
    simp only [Option.mem_def, Option.some.injEq, exists_eq_left', CodeUnit.wellFormed_iff,
      ← CodeUnit.map_emittedName_entities u, List.forall_mem_map, Entity.faults_eq_nil_iff]
    constructor
    · rintro ⟨hname, hentities, hdistinct, -⟩
      exact ⟨hname, fun e he => (hentities e he).1, hdistinct, fun e he => (hentities e he).2⟩
    · rintro ⟨hname, hsymbols, hdistinct, hwell⟩
      exact ⟨hname, fun e he => ⟨hsymbols e he, hwell e he⟩, hdistinct, by simp⟩

end CodeEmission
