import CodeEmission.Proofs.CodeUnit.Soundness

/-!
# Well-Formed Entities

What the structural checks ask of a function or a data object, said of the entity itself rather than
of the list of its faults. A stage that rewrites entities keeps them free of faults when it keeps the
fields of these structures.

* `Func.faults_eq_nil_iff` and `DataObject.faults_eq_nil_iff`: an entity has no faults exactly when it
  is well-formed.
* `Entity.isRedefinition_of_mem_problems`: among named entities without faults only symbols can
  clash.
* `Entity.problems_map`: a change that keeps the kinds and symbols of entities and brings no faults
  changes no problem.
-/

namespace CodeEmission

/-- An operand is of a known kind and has what its kind needs. -/
def Operand.WellFormed (locals : List String) (op : Operand) : Prop :=
  match op.kind with
  | .reg => op.reg ≠ ""
  | .imm => True
  | .sym => op.sym ≠ ""
  | .label => op.sym ∈ locals
  | .mem => op.base ≠ "" ∨ op.sym ≠ ""
  | .other _ => False

/-- An instruction has an operation and well-formed operands, and its machine code, if there is any,
can be read and holds its symbol field. -/
structure Inst.WellFormed (locals : List String) (inst : Inst) : Prop where
  op : inst.op ≠ ""
  operands : ∀ op ∈ inst.operands, op.WellFormed locals
  encoding : inst.encoding ≠ "" → ∃ bytes, decodeEncoding inst.encoding = .ok bytes ∧
    fixupFits inst.fixupOffset bytes.length = true

/-- A jump table has a label and lists labels of instructions, at least one. -/
structure JumpTable.WellFormed (labels : List String) (t : JumpTable) : Prop where
  label : t.label ≠ ""
  targets_ne_nil : t.targets ≠ []
  targets : ∀ target ∈ t.targets, target ∈ labels

/-- A function has a linkage and an alignment that mean something, local names that are pairwise
distinct, and well-formed tables and instructions. -/
structure Func.WellFormed (f : Func) : Prop where
  linkage : ∀ text, f.linkage ≠ .other text
  align : isAlignment f.align = true
  locals : (f.labels ++ f.jumpTables.map JumpTable.label).Nodup
  tables : ∀ t ∈ f.jumpTables, t.WellFormed f.labels
  insts : ∀ inst ∈ f.insts, inst.WellFormed f.locals

/-- A value has a width of data, and a symbol has room in it. -/
def Datum.WellFormed (v : Datum) : Prop :=
  (v.size = 1 ∨ v.size = 2 ∨ v.size = 4 ∨ v.size = 8) ∧ (v.sym = "" ∨ 4 ≤ v.size)

/-- A data object has a linkage and an alignment that mean something, and well-formed values. -/
structure DataObject.WellFormed (d : DataObject) : Prop where
  linkage : ∀ text, d.linkage ≠ .other text
  align : isAlignment d.align = true
  values : ∀ v ∈ d.values, v.WellFormed

/-! ## Faults and well-formedness -/

/-- Numbered things have no faults when each of them has none, whatever its number. -/
theorem flatMap_zipIdx_eq_nil_iff {α : Type} {faults : α → Nat → List Fault} {P : α → Prop}
    (h : ∀ a i, faults a i = [] ↔ P a) (as : List α) :
    (as.zipIdx.flatMap fun (a, i) => faults a i) = [] ↔ ∀ a ∈ as, P a := by
  simp only [List.flatMap_eq_nil_iff, Prod.forall, h, List.mem_zipIdx_iff_getElem?]
  constructor
  · intro hall a ha
    obtain ⟨i, hi⟩ := List.mem_iff_getElem?.mp ha
    exact hall a i hi
  · exact fun hall a i hi => hall a (List.mem_of_getElem? hi)

@[simp]
theorem Linkage.faults_eq_nil_iff {l : Linkage} : l.faults = [] ↔ ∀ text, l ≠ .other text := by
  cases l <;> simp [Linkage.faults]

theorem Operand.faults_eq_nil_iff (locals : List String) (i : Nat) (op : Operand) (j : Nat) :
    op.faults locals i j = [] ↔ op.WellFormed locals := by
  unfold Operand.faults Operand.WellFormed
  cases op.kind <;> simp

theorem Inst.encodingFaults_eq_nil_iff {i : Nat} {inst : Inst} :
    inst.encodingFaults i = [] ↔ (inst.encoding ≠ "" → ∃ bytes,
      decodeEncoding inst.encoding = .ok bytes ∧
        fixupFits inst.fixupOffset bytes.length = true) := by
  unfold Inst.encodingFaults
  split
  next hempty => simp [hempty]
  next hpresent =>
    cases hdecode : decodeEncoding inst.encoding with
    | error cause => simp [hpresent]
    | ok bytes => simp [hpresent]

theorem Inst.faults_eq_nil_iff (locals : List String) (inst : Inst) (i : Nat) :
    inst.faults locals i = [] ↔ inst.WellFormed locals := by
  have hoperands := flatMap_zipIdx_eq_nil_iff (Operand.faults_eq_nil_iff locals i) inst.operands
  simp only [Inst.faults, List.append_eq_nil_iff, faultUnless_eq_nil, decide_eq_true_eq, hoperands,
    Inst.encodingFaults_eq_nil_iff]
  exact ⟨fun ⟨⟨hop, hops⟩, hencoding⟩ => ⟨hop, hops, hencoding⟩,
    fun h => ⟨⟨h.op, h.operands⟩, h.encoding⟩⟩

/-- A function has no faults when it is well-formed. -/
theorem Func.faults_eq_nil_iff {f : Func} : f.faults = [] ↔ f.WellFormed := by
  have hinsts := flatMap_zipIdx_eq_nil_iff (Inst.faults_eq_nil_iff f.locals) f.insts
  simp only [Func.faults, List.append_eq_nil_iff, Linkage.faults_eq_nil_iff, alignFaults,
    faultUnless_eq_nil, duplicateFaults_eq_nil_iff, tableFaults_eq_nil_iff, hinsts]
  constructor
  · rintro ⟨⟨⟨⟨hlinkage, halign⟩, hlabels, -⟩, htables, hnodup, hnew⟩, hinst⟩
    refine ⟨hlinkage, halign, ?_, fun t ht => ?_, hinst⟩
    · -- the checks look at the labels of tables one by one, so they are put together here
      refine List.nodup_append.mpr ⟨hlabels, hnodup, ?_⟩
      rintro l hl _ hl' rfl
      obtain ⟨t, ht, rfl⟩ := List.mem_map.mp hl'
      exact (hnew t ht).1 hl
    · obtain ⟨hlabel, hsome, htargets⟩ := htables t ht
      exact ⟨hlabel, hsome, htargets⟩
  · intro h
    obtain ⟨hlabels, hnodup, happart⟩ := List.nodup_append.mp h.locals
    refine ⟨⟨⟨⟨h.linkage, h.align⟩, hlabels, by simp⟩, fun t ht => ?_, hnodup, fun t ht => ?_⟩,
      h.insts⟩
    · exact ⟨(h.tables t ht).label, (h.tables t ht).targets_ne_nil, (h.tables t ht).targets⟩
    · exact ⟨fun hmem => happart _ hmem _ (List.mem_map_of_mem ht) rfl, by simp⟩

theorem Datum.faults_eq_nil_iff (v : Datum) (i : Nat) : v.faults i = [] ↔ v.WellFormed := by
  simp [Datum.faults, Datum.WellFormed, or_assoc]

/-- A data object has no faults when it is well-formed. -/
theorem DataObject.faults_eq_nil_iff {d : DataObject} : d.faults = [] ↔ d.WellFormed := by
  have hvalues := flatMap_zipIdx_eq_nil_iff Datum.faults_eq_nil_iff d.values
  simp only [DataObject.faults, List.append_eq_nil_iff, Linkage.faults_eq_nil_iff, alignFaults,
    faultUnless_eq_nil, hvalues]
  exact ⟨fun h => ⟨h.1.1, h.1.2, h.2⟩, fun h => ⟨⟨h.linkage, h.align⟩, h.values⟩⟩

/-- An entity as it should be. -/
def Entity.WellFormed : Entity → Prop
  | func f => f.WellFormed
  | data d => d.WellFormed

theorem Entity.faults_eq_nil_iff {e : Entity} : e.faults = [] ↔ e.WellFormed := by
  cases e with
  | func f => exact Func.faults_eq_nil_iff
  | data d => exact DataObject.faults_eq_nil_iff

/-! ## Problems of named entities without faults -/

/-- A problem is that an entity of the list has the symbol of an earlier one. -/
def Problem.IsRedefinition (es : List Entity) : Problem → Prop
  | .redefinition kind name earlier => ∃ (i j : Nat) (first second : Entity), i < j ∧
      es[i]? = some first ∧ es[j]? = some second ∧ first.kind = earlier ∧ second.kind = kind ∧
      first.emittedName = name ∧ second.emittedName = name
  | _ => False

namespace Entity

/-- Where entities have symbols and no faults, the problems are that a symbol is taken. -/
theorem isRedefinition_of_mem_problems {before es : List Entity}
    (h : ∀ e ∈ es, e.emittedName ≠ "" ∧ e.WellFormed) {q : Problem} (hq : q ∈ problems before es) :
    q.IsRedefinition (before ++ es) := by
  induction es generalizing before with
  | nil => cases hq
  | cons e rest ih =>
    obtain ⟨⟨hname, hwell⟩, hrest⟩ := List.forall_mem_cons.mp h
    rw [problems, faults_eq_nil_iff.mpr hwell, List.map_nil, List.append_nil, List.mem_append] at hq
    rcases hq with hq | hq
    · rw [nameProblems, if_neg hname] at hq
      split at hq
      next earlier hfind =>
        -- the symbol was found among the entities before, so it has a smaller number
        rw [List.mem_singleton.mp hq]
        obtain ⟨i, hi⟩ := List.mem_iff_getElem?.mp (List.mem_of_find?_eq_some hfind)
        have hlt := (List.getElem?_eq_some_iff.mp hi).1
        have hsame : earlier.emittedName = e.emittedName := by simpa using List.find?_some hfind
        refine ⟨i, before.length, earlier, e, hlt, ?_, ?_, rfl, rfl, hsame, rfl⟩
        · rw [List.getElem?_append_left hlt, hi]
        · simp
      next => cases hq
    · simpa using ih hrest hq

/-- Entities have the same problems after a change that keeps kinds and symbols, if they have no
faults before and after it. -/
theorem problems_map {change : Entity → Entity} (hkind : ∀ e, (change e).kind = e.kind)
    (hname : ∀ e, (change e).emittedName = e.emittedName) {es : List Entity}
    (hwell : ∀ e ∈ es, e.WellFormed ∧ (change e).WellFormed) (before : List Entity) :
    problems (before.map change) (es.map change) = problems before es := by
  -- the search for an earlier entity goes by symbols and reports its kind
  have hfind : ∀ (before : List Entity) (e : Entity),
      nameProblems (before.map change) (change e) = nameProblems before e := by
    intro before e
    simp only [nameProblems, hname, hkind, List.find?_map, Function.comp_def]
    cases before.find? fun b => b.emittedName = e.emittedName <;> simp [hkind]
  induction es generalizing before with
  | nil => rfl
  | cons e rest ih =>
    obtain ⟨⟨hbefore, hafter⟩, hrest⟩ := List.forall_mem_cons.mp hwell
    have hlater := ih hrest (before ++ [e])
    rw [List.map_append] at hlater
    simp only [List.map_cons, problems, hfind, faults_eq_nil_iff.mpr hbefore,
      faults_eq_nil_iff.mpr hafter, List.map_nil] at hlater ⊢
    rw [hlater]

end Entity

end CodeEmission
