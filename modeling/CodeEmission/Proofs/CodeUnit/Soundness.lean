import CodeEmission.CodeUnit.Verify
import Mathlib.Algebra.Group.Nat.Defs

/-!
# What the Structural Checks Promise

A unit passes `verify` when it has no problems. This module reads that off as facts about the unit:
every list of faults that the checks compute is empty exactly when a statement about names, labels,
tables or operands holds.

* `verify_eq_ok_iff`: a unit passes when it is named and its entities have no problems.
* `Entity.problems_eq_nil_iff`: symbols are there and pairwise distinct, and no entity has a fault.
* `Func.nodup_locals`: the labels of a faultless function, those of instructions and those of jump
  tables together, are pairwise distinct.
* `Operand.sym_ne_empty`: an operand without faults that has to name a symbol or a label names one.
-/

namespace CodeEmission

/-- The names that mean something inside a function only: the labels of its instructions, then those
of its jump tables. -/
abbrev Func.locals (f : Func) : List String :=
  f.labels ++ f.tableLabels

/-- A condition that holds gives no fault, and one that fails does. -/
@[simp]
theorem faultUnless_eq_nil {ok : Bool} {fault : Fault} :
    faultUnless ok fault = [] ↔ ok = true := by
  cases ok <;> simp [faultUnless]

namespace Entity

/-- An entity's symbol is fine when it is not empty and no entity before has the same one. -/
theorem nameProblems_eq_nil_iff {before : List Entity} {e : Entity} :
    nameProblems before e = [] ↔
      e.emittedName ≠ "" ∧ ∀ b ∈ before, b.emittedName ≠ e.emittedName := by
  unfold nameProblems
  split
  next hempty => simp [hempty]
  next hname =>
    cases hfind : before.find? fun b => b.emittedName = e.emittedName with
    | none => simpa [hname] using hfind
    | some earlier =>
      have hmem := List.mem_of_find?_eq_some hfind
      have hsame := List.find?_some hfind
      simp only [decide_eq_true_eq] at hsame
      simp only [reduceCtorEq, false_iff, not_and]
      exact fun _ hfresh => hfresh earlier hmem hsame

/-- Entities have no problems when each has a symbol and no fault, and the symbols are pairwise
distinct, also from those before. -/
theorem problems_eq_nil_iff {before es : List Entity} :
    problems before es = [] ↔
      (∀ e ∈ es, e.emittedName ≠ "" ∧ e.faults = []) ∧
        (es.map emittedName).Nodup ∧
          ∀ e ∈ es, ∀ b ∈ before, b.emittedName ≠ e.emittedName := by
  induction es generalizing before with
  | nil => simp [problems]
  | cons e rest ih =>
    simp only [problems, List.append_eq_nil_iff, List.map_eq_nil_iff, ih,
      nameProblems_eq_nil_iff, List.map_cons, List.nodup_cons, List.forall_mem_cons,
      List.mem_append, List.mem_singleton, List.mem_map]
    constructor
    · rintro ⟨⟨⟨hname, hbefore⟩, hfaults⟩, hrest, hnodup, hlater⟩
      refine ⟨⟨⟨hname, hfaults⟩, hrest⟩, ⟨?_, hnodup⟩, hbefore, ?_⟩
      · rintro ⟨later, hmem, hsame⟩
        exact hlater later hmem e (.inr rfl) hsame.symm
      · exact fun later hmem b hb => hlater later hmem b (.inl hb)
    · rintro ⟨⟨⟨hname, hfaults⟩, hrest⟩, ⟨hfresh, hnodup⟩, hbefore, hlater⟩
      refine ⟨⟨⟨hname, hbefore⟩, hfaults⟩, hrest, hnodup, ?_⟩
      rintro later hmem b (hb | rfl)
      · exact hlater later hmem b hb
      · exact fun hsame => hfresh ⟨later, hmem, hsame.symm⟩

end Entity

/-- A unit passes the checks when it has a name and its entities have no problems. -/
theorem verify_eq_ok_iff {u : CodeUnit} :
    verify (some u) = .ok () ↔ u.name ≠ "" ∧ Entity.problems [] u.entities = [] := by
  simp only [verify, List.isEmpty_iff]
  split
  next h => simpa [CodeUnit.problems] using h
  next h => simpa [CodeUnit.problems] using h

/-- Whether a unit passes the checks can be computed. -/
instance (u : CodeUnit) : Decidable (verify (some u) = .ok ()) :=
  decidable_of_iff _ verify_eq_ok_iff.symm

section Verified

variable {u : CodeUnit} (h : verify (some u) = .ok ())

include h

/-- The symbols of a unit that passes are pairwise distinct. -/
theorem nodup_emittedNames_of_verify : (u.entities.map Entity.emittedName).Nodup :=
  (Entity.problems_eq_nil_iff.mp (verify_eq_ok_iff.mp h).2).2.1

/-- Every entity of a unit that passes has a symbol. -/
theorem emittedName_ne_empty_of_verify {e : Entity} (he : e ∈ u.entities) :
    e.emittedName ≠ "" :=
  ((Entity.problems_eq_nil_iff.mp (verify_eq_ok_iff.mp h).2).1 e he).1

/-- No function of a unit that passes has a fault. -/
theorem func_faults_of_verify {f : Func} (hf : f ∈ u.funcs) : f.faults = [] := by
  have hmem : Entity.func f ∈ u.entities := by simp [CodeUnit.entities, hf]
  exact ((Entity.problems_eq_nil_iff.mp (verify_eq_ok_iff.mp h).2).1 _ hmem).2

/-- No data object of a unit that passes has a fault. -/
theorem data_faults_of_verify {d : DataObject} (hd : d ∈ u.data) : d.faults = [] := by
  have hmem : Entity.data d ∈ u.entities := by simp [CodeUnit.entities, hd]
  exact ((Entity.problems_eq_nil_iff.mp (verify_eq_ok_iff.mp h).2).1 _ hmem).2

end Verified

section Alignment

/-- An alignment is none or a power of two that fits a word. -/
theorem exists_power_of_isAlignment {align : Int64} (h : isAlignment align = true) :
    ∃ k < 32, max 1 align.toInt.toNat = 2 ^ k := by
  simp only [isAlignment, Bool.or_eq_true, decide_eq_true_eq, List.any_eq_true,
    List.mem_range] at h
  rcases h with rfl | ⟨k, hk, hpower⟩
  · exact ⟨0, by decide, rfl⟩
  · refine ⟨k, hk, ?_⟩
    rw [hpower, Int.toNat_natCast]
    exact Nat.max_eq_right Nat.one_le_two_pow

/-- The alignment of a function without faults is none or a power of two. -/
theorem Func.exists_power_align {f : Func} (h : f.faults = []) :
    ∃ k < 32, max 1 f.align.toInt.toNat = 2 ^ k := by
  simp only [Func.faults, List.append_eq_nil_iff, alignFaults, faultUnless_eq_nil] at h
  exact exists_power_of_isAlignment h.1.1.1.2

/-- The alignment of a data object without faults is none or a power of two. -/
theorem DataObject.exists_power_align {d : DataObject} (h : d.faults = []) :
    ∃ k < 32, max 1 d.align.toInt.toNat = 2 ^ k := by
  simp only [DataObject.faults, List.append_eq_nil_iff, alignFaults, faultUnless_eq_nil] at h
  exact exists_power_of_isAlignment h.1.2

end Alignment

/-- A value of a data object without faults has a width of data, and room for its symbol. -/
theorem DataObject.size_of_faultless {d : DataObject} (h : d.faults = []) {v : Datum}
    (hv : v ∈ d.values) :
    (v.size = 1 ∨ v.size = 2 ∨ v.size = 4 ∨ v.size = 8) ∧ (v.sym = "" ∨ 4 ≤ v.size) := by
  obtain ⟨i, hi⟩ := List.mem_iff_getElem?.mp hv
  simp only [faults, List.append_eq_nil_iff, List.flatMap_eq_nil_iff] at h
  have hfaults := h.2 (v, i) (List.mem_zipIdx_iff_getElem?.mpr hi)
  simp only [Datum.faults, List.append_eq_nil_iff, faultUnless_eq_nil, Bool.or_eq_true,
    decide_eq_true_eq, or_assoc] at hfaults
  exact hfaults

namespace Func

/-- No label is reported twice when the labels are pairwise distinct, also from those seen. -/
theorem duplicateFaults_eq_nil_iff {seen : List String} {i : Nat} {insts : List Inst} :
    duplicateFaults seen i insts = [] ↔
      ((insts.map Inst.label).filter (· ≠ "")).Nodup ∧
        ∀ l ∈ (insts.map Inst.label).filter (· ≠ ""), l ∉ seen := by
  induction insts generalizing seen i with
  | nil => simp [duplicateFaults]
  | cons inst rest ih =>
    by_cases hlabel : inst.label = ""
    · simp [duplicateFaults, hlabel, ih]
    · simp only [duplicateFaults, hlabel, if_false, List.append_eq_nil_iff, faultUnless_eq_nil,
        Bool.not_eq_true', ih, List.map_cons, ne_eq, not_false_eq_true, decide_true,
        List.filter_cons_of_pos, List.nodup_cons, List.forall_mem_cons, List.contains_eq_mem,
        decide_eq_false_iff_not]
      simp only [List.mem_cons, not_or]
      constructor
      · rintro ⟨hseen, hnodup, hrest⟩
        exact ⟨⟨fun hmem => (hrest _ hmem).1 rfl, hnodup⟩, hseen, fun l hl => (hrest l hl).2⟩
      · rintro ⟨⟨hfresh, hnodup⟩, hseen, hrest⟩
        exact ⟨hseen, hnodup, fun l hl => ⟨fun heq => hfresh (heq ▸ hl), hrest l hl⟩⟩

/-- Jump tables have no faults when each is labelled and lists known labels, at least one, and their
labels are pairwise distinct, also from those of instructions and those seen. -/
theorem tableFaults_eq_nil_iff {labels seen : List String} {tables : List JumpTable} :
    tableFaults labels seen tables = [] ↔
      (∀ t ∈ tables, t.label ≠ "" ∧ t.targets ≠ [] ∧ ∀ target ∈ t.targets, target ∈ labels) ∧
        (tables.map JumpTable.label).Nodup ∧
          ∀ t ∈ tables, t.label ∉ labels ∧ t.label ∉ seen := by
  induction tables generalizing seen with
  | nil => simp [tableFaults]
  | cons table rest ih =>
    by_cases hlabel : table.label = ""
    · simp [tableFaults, hlabel]
    · simp only [tableFaults, hlabel, if_false, List.append_eq_nil_iff, faultUnless_eq_nil,
        targetFaults, List.flatMap_eq_nil_iff, Bool.not_eq_true', Bool.or_eq_false_iff,
        List.contains_eq_mem, decide_eq_false_iff_not, decide_eq_true_eq, List.isEmpty_eq_false_iff,
        ih, List.map_cons, List.nodup_cons, List.forall_mem_cons, List.mem_map, not_exists, not_and,
        ne_eq, not_false_eq_true, true_and]
      simp only [List.mem_cons, not_or]
      constructor
      · rintro ⟨⟨hnew, hsome, htargets⟩, hrest, hnodup, hlater⟩
        exact ⟨⟨⟨hsome, htargets⟩, hrest⟩, ⟨fun t ht => (hlater t ht).2.1, hnodup⟩, hnew,
          fun t ht => ⟨(hlater t ht).1, (hlater t ht).2.2⟩⟩
      · rintro ⟨⟨⟨hsome, htargets⟩, hrest⟩, ⟨hfresh, hnodup⟩, hnew, hlater⟩
        exact ⟨⟨hnew, hsome, htargets⟩, hrest, hnodup,
          fun t ht => ⟨(hlater t ht).1, hfresh t ht, (hlater t ht).2⟩⟩

section Faultless

variable {f : Func} (h : f.faults = [])

include h

/-- The jump tables of a faultless function are labelled. -/
theorem tableLabels_eq_of_faultless : f.tableLabels = f.jumpTables.map JumpTable.label := by
  simp only [faults, List.append_eq_nil_iff] at h
  obtain ⟨⟨⟨-, -⟩, htables⟩, -⟩ := h
  have hlabelled := (tableFaults_eq_nil_iff.mp htables).1
  refine List.filter_eq_self.mpr fun l hl => ?_
  obtain ⟨t, ht, rfl⟩ := List.mem_map.mp hl
  simpa using (hlabelled t ht).1

/-- The labels of a faultless function are pairwise distinct, jump tables included. -/
theorem nodup_locals : (f.locals).Nodup := by
  have htableLabels := tableLabels_eq_of_faultless h
  simp only [faults, List.append_eq_nil_iff] at h
  obtain ⟨⟨⟨-, hduplicates⟩, htables⟩, -⟩ := h
  obtain ⟨-, hnodup, hnew⟩ := tableFaults_eq_nil_iff.mp htables
  rw [locals, htableLabels, List.nodup_append]
  refine ⟨(duplicateFaults_eq_nil_iff.mp hduplicates).1, hnodup, ?_⟩
  intro l hl l' hl' hsame
  obtain ⟨t, ht, rfl⟩ := List.mem_map.mp hl'
  exact (hnew t ht).1 (hsame ▸ hl)

/-- No operand of a faultless function has a fault. -/
theorem operand_faults_of_faultless {inst : Inst} {i : Nat} (hi : f.insts[i]? = some inst)
    {op : Operand} {j : Nat} (hj : inst.operands[j]? = some op) :
    op.faults (f.locals) i j = [] := by
  simp only [faults, List.append_eq_nil_iff, List.flatMap_eq_nil_iff] at h
  have hinst := h.2 (inst, i) (List.mem_zipIdx_iff_getElem?.mpr hi)
  simp only [Inst.faults, List.append_eq_nil_iff, List.flatMap_eq_nil_iff] at hinst
  exact hinst.1.2 (op, j) (List.mem_zipIdx_iff_getElem?.mpr hj)

end Faultless

/-- No local name is empty. -/
theorem ne_empty_of_mem_locals {f : Func} {l : String} (h : l ∈ f.locals) :
    l ≠ "" := by
  rcases List.mem_append.mp h with h | h
  · simpa using (List.mem_filter.mp h).2
  · simpa using (List.mem_filter.mp h).2

/-- The label of an instruction is a local name. -/
theorem label_mem_locals {f : Func} {i : Inst} (hi : i ∈ f.insts) (hne : i.label ≠ "") :
    i.label ∈ f.locals :=
  List.mem_append_left _ (List.mem_filter.mpr ⟨List.mem_map_of_mem hi, by simpa using hne⟩)

/-- The label of a jump table is a local name. -/
theorem tableLabel_mem_locals {f : Func} {t : JumpTable} (ht : t ∈ f.jumpTables)
    (hne : t.label ≠ "") : t.label ∈ f.locals :=
  List.mem_append_right _ (List.mem_filter.mpr ⟨List.mem_map_of_mem ht, by simpa using hne⟩)

end Func

/-- An operand without faults names the symbol or the label that it is made for. -/
theorem Operand.sym_ne_empty {f : Func} {op : Operand} {i j : Nat}
    (h : op.faults (f.locals) i j = [])
    (hkind : op.kind = .sym ∨ op.kind = .label) : op.sym ≠ "" := by
  rcases hkind with hkind | hkind
  · simpa [faults, hkind] using h
  · simp only [faults, hkind, faultUnless_eq_nil, List.contains_iff_mem] at h
    exact Func.ne_empty_of_mem_locals h

end CodeEmission
