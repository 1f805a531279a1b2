import CodeEmission.Proofs.Assembly.Statements

/-!
# Units That Can Be Read Back

A unit is legible when an assembler can tell the words of its listing apart: what the unit defines and
refers to is named as symbols are, its instructions show operations and words, and its own name stays
on the line that shows it. Nothing checks this on the way to the listing.

* `CodeUnit.IsLegible`: the conditions on the texts of a unit, as they stand in it after the stages.
* `Listing.isLegible_of_ofUnit`: then all lines of its listing are legible.
-/

namespace CodeEmission

open Dialect (IsSymbolName IsOperandWord)
open Statement (IsMnemonic)

/-- The operation of an instruction as it is written. AT&T appends the width letter. -/
def Inst.operation (dialect : Dialect) (inst : Inst) : String :=
  match dialect with
  | .att => inst.op ++ inst.suffix
  | .intel => inst.op

/-- The names that a function refers to outside of its instructions. -/
def Func.mentionedNames (f : Func) : List String :=
  f.unwind.personalitySym :: f.jumpTables.flatMap JumpTable.targets

/-- The names that a unit refers to outside of its instructions. Where there could be one and is none,
it is empty. -/
def CodeUnit.mentionedNames (u : CodeUnit) : List String :=
  u.funcs.flatMap Func.mentionedNames ++ u.data.flatMap fun d => d.values.map Datum.sym

/-- The words of a unit are what they are printed for. -/
structure CodeUnit.IsLegible (dialect : Dialect) (u : CodeUnit) : Prop where
  /-- The name of the unit stays in the comment that shows it. -/
  name : '\n' ∉ u.name.toList
  /-- What the unit defines is named as symbols are. -/
  defined : ∀ name ∈ u.definedNames, IsSymbolName name
  /-- So is what it refers to. -/
  mentioned : ∀ name ∈ u.mentionedNames, name = "" ∨ IsSymbolName name
  /-- Its operations are operations. -/
  operations : ∀ inst ∈ u.funcs.flatMap Func.insts, IsMnemonic (inst.operation dialect)
  /-- Its operands show words. -/
  operands : ∀ inst ∈ u.funcs.flatMap Func.insts, ∀ op ∈ inst.operands, ∀ name ∈ op.shownNames,
    IsOperandWord name

/-- Whether a unit is legible can be computed. -/
instance (dialect : Dialect) (u : CodeUnit) : Decidable (u.IsLegible dialect) :=
  decidable_of_iff
    ('\n' ∉ u.name.toList ∧ (∀ name ∈ u.definedNames, IsSymbolName name) ∧
      (∀ name ∈ u.mentionedNames, name = "" ∨ IsSymbolName name) ∧
      (∀ inst ∈ u.funcs.flatMap Func.insts, IsMnemonic (inst.operation dialect)) ∧
      ∀ inst ∈ u.funcs.flatMap Func.insts, ∀ op ∈ inst.operands, ∀ name ∈ op.shownNames,
        IsOperandWord name)
    ⟨fun ⟨hname, hdefined, hmentioned, hoperations, hoperands⟩ =>
        ⟨hname, hdefined, hmentioned, hoperations, hoperands⟩,
      fun ⟨hname, hdefined, hmentioned, hoperations, hoperands⟩ =>
        ⟨hname, hdefined, hmentioned, hoperations, hoperands⟩⟩

namespace Listing

variable {p : Profile} {lines : List Line}

/-! ## Lines of the parts -/

theorem isLegible_alignLines (align : Int64) (fill : Bool) :
    ∀ line ∈ alignLines p align fill, line.IsLegible p := by
  unfold alignLines
  split
  · exact nofun
  · exact List.forall_mem_singleton.mpr trivial

theorem isLegible_linkageLines {sym : String} (h : IsSymbolName sym) (l : Linkage) :
    ∀ line ∈ linkageLines p sym l, line.IsLegible p := by
  intro line hline
  rcases mem_linkageLines hline with rfl | rfl | rfl <;> exact h

theorem isLegible_unwindOpening {sym : String} (h : IsSymbolName sym) {w : Unwind}
    (hpersonality : w.personalitySym = "" ∨ IsSymbolName w.personalitySym) :
    ∀ line ∈ unwindOpening sym w, line.IsLegible p := by
  unfold unwindOpening
  split
  · split
    · exact List.forall_mem_singleton.mpr trivial
    next hsome =>
      exact List.forall_mem_cons.mpr
        ⟨trivial, List.forall_mem_singleton.mpr (hpersonality.resolve_left hsome)⟩
  · split
    · exact List.forall_mem_cons.mpr ⟨h, List.forall_mem_singleton.mpr trivial⟩
    next hsome =>
      exact List.forall_mem_cons.mpr ⟨h, List.forall_mem_cons.mpr
        ⟨hpersonality.resolve_left hsome, List.forall_mem_singleton.mpr trivial⟩⟩
  · exact nofun

theorem isLegible_unwindClosing (w : Unwind) : ∀ line ∈ unwindClosing w, line.IsLegible p := by
  unfold unwindClosing
  split
  · exact List.forall_mem_singleton.mpr trivial
  · exact List.forall_mem_singleton.mpr trivial
  · exact nofun

/-- The operation of an instruction is what it is written with. -/
theorem operation_of_parts {dialect : Dialect} {arch : Arch} {inst : Inst} {operation : String}
    {operands : List String} (h : inst.parts dialect arch = .ok (operation, operands)) :
    operation = inst.operation dialect := by
  unfold Inst.parts at h
  split at h
  · cases h
  · cases dialect with
    | att => exact (Prod.mk.inj (Except.ok.inj h)).1.symm
    | intel => exact (Prod.mk.inj (Except.ok.inj h)).1.symm

/-- The line of an instruction is legible when its operation is one and its operands show words. -/
theorem isLegible_instruction {inst : Inst} {operation : String} {operands : List String}
    (hoperation : IsMnemonic (inst.operation p.dialect))
    (hoperands : ∀ op ∈ inst.operands, ∀ name ∈ op.shownNames, IsOperandWord name)
    (h : inst.parts p.dialect p.arch = .ok (operation, operands)) :
    (Line.instruction operation operands).IsLegible p := by
  rw [← operation_of_parts h] at hoperation
  refine ⟨hoperation, fun text htext => Text.lineFeeds_eq_zero_iff.mp ?_⟩
  -- the operation as it is written has no line feed, so neither of its parts has one
  have hwritten : Text.lineFeeds (inst.operation p.dialect) = 0 := by
    rw [← operation_of_parts h]
    exact Text.lineFeeds_of_not_mem fun hmem => absurd (hoperation.1 _ hmem) (by decide)
  have hparts : Text.lineFeeds inst.op = 0 ∧
      (p.dialect = .att → Text.lineFeeds inst.suffix = 0) := by
    cases hdialect : p.dialect with
    | att => simpa [Inst.operation, hdialect] using hwritten
    | intel => simpa [Inst.operation, hdialect] using hwritten
  refine (Inst.lineFeeds_parts_eq_zero_iff h).mpr ⟨hparts.1, hparts.2, ?_⟩ text
    (List.mem_cons_of_mem _ htext)
  exact fun op hop name hname => Text.lineFeeds_of_not_mem fun hmem =>
    absurd (hoperands op hop name hname _ hmem) (by decide)

theorem isLegible_instLines {func : String} {i : Nat} {insts : List Inst}
    (hlabels : ∀ inst ∈ insts, inst.label = "" ∨ IsSymbolName inst.label)
    (hoperations : ∀ inst ∈ insts, IsMnemonic (inst.operation p.dialect))
    (hoperands : ∀ inst ∈ insts, ∀ op ∈ inst.operands, ∀ name ∈ op.shownNames,
      IsOperandWord name)
    (h : instLines p func i insts = .ok lines) : ∀ line ∈ lines, line.IsLegible p := by
  induction insts generalizing i lines with
  | nil =>
    cases h
    exact nofun
  | cons inst rest ih =>
    rw [instLines] at h
    split at h
    · cases h
    next operation operands hparts =>
      split at h
      · cases h
      next later hlater =>
        rw [List.forall_mem_cons] at hlabels hoperations hoperands
        rw [← Except.ok.inj h, List.forall_mem_append, List.forall_mem_cons]
        refine ⟨?_, isLegible_instruction hoperations.1 hoperands.1 hparts,
          ih hlabels.2 hoperations.2 hoperands.2 hlater⟩
        split
        · exact nofun
        next hsome => exact List.forall_mem_singleton.mpr (hlabels.1.resolve_left hsome)

theorem isLegible_tableLines {t : JumpTable} (hlabel : IsSymbolName t.label)
    (htargets : ∀ target ∈ t.targets, target = "" ∨ IsSymbolName target) :
    ∀ line ∈ tableLines p t, line.IsLegible p := by
  have hregion (region : Line) (h : region.IsLegible p) :
      ∀ line ∈ (if p.dataRegions then [region] else []), line.IsLegible p := by
    split
    · exact List.forall_mem_singleton.mpr h
    · exact nofun
  unfold tableLines
  simp only [List.forall_mem_append, List.forall_mem_cons, List.forall_mem_map]
  exact ⟨⟨⟨isLegible_alignLines 4 false, hregion _ trivial⟩, hlabel,
    fun target htarget => ⟨htargets target htarget, hlabel⟩⟩, hregion _ trivial⟩

theorem isLegible_valueLines {data : String} {i : Nat} {values : List Datum}
    (hsyms : ∀ v ∈ values, v.sym = "" ∨ IsSymbolName v.sym)
    (h : valueLines p data i values = .ok lines) : ∀ line ∈ lines, line.IsLegible p := by
  induction values generalizing i lines with
  | nil =>
    cases h
    exact nofun
  | cons v rest ih =>
    obtain ⟨directive, later, hdirective, hlater, rfl⟩ := valueLines_cons_eq_ok h
    rw [List.forall_mem_cons] at hsyms
    exact List.forall_mem_cons.mpr ⟨⟨⟨_, hdirective⟩, hsyms.1⟩, ih hsyms.2 hlater⟩

/-! ## Lines of a unit -/

theorem isLegible_funcLines {f : Func} (hdefined : ∀ name ∈ f.definedNames, IsSymbolName name)
    (hmentioned : ∀ name ∈ f.mentionedNames, name = "" ∨ IsSymbolName name)
    (hoperations : ∀ inst ∈ f.insts, IsMnemonic (inst.operation p.dialect))
    (hoperands : ∀ inst ∈ f.insts, ∀ op ∈ inst.operands, ∀ name ∈ op.shownNames, IsOperandWord name)
    (h : funcLines p f = .ok lines) : ∀ line ∈ lines, line.IsLegible p := by
  obtain ⟨body, hbody, rfl⟩ := funcLines_eq_ok h
  simp only [Func.definedNames, List.forall_mem_cons, List.forall_mem_append,
    List.forall_mem_map] at hdefined
  simp only [Func.mentionedNames, List.forall_mem_cons, List.forall_mem_flatMap] at hmentioned
  obtain ⟨hsym, hlabels, htables⟩ := hdefined
  obtain ⟨hpersonality, htargets⟩ := hmentioned
  -- the labels that are there are among the names that the function defines
  have hinstLabels : ∀ inst ∈ f.insts, inst.label = "" ∨ IsSymbolName inst.label := by
    intro inst hinst
    refine or_iff_not_imp_left.mpr fun hsome => hlabels _ ?_
    rw [Func.labels_eq_flatMap]
    exact List.mem_flatMap.mpr ⟨inst, hinst, by simp [Inst.labels, hsome]⟩
  have htype : ∀ line ∈ (if p.format = .elf then [Line.functionType f.emittedName] else []),
      line.IsLegible p := by
    split
    · exact List.forall_mem_singleton.mpr hsym
    · exact List.forall_mem_nil _
  have hjumps : ∀ line ∈ f.jumpTables.flatMap (tableLines p), line.IsLegible p :=
    List.forall_mem_flatMap.mpr fun t ht => isLegible_tableLines (htables t ht) (htargets t ht)
  simp only [List.forall_mem_append]
  exact ⟨⟨⟨⟨⟨⟨⟨isLegible_alignLines _ _, isLegible_linkageLines hsym _⟩, htype⟩,
    List.forall_mem_singleton.mpr hsym⟩, isLegible_unwindOpening hsym hpersonality⟩,
    isLegible_instLines hinstLabels hoperations hoperands hbody⟩, isLegible_unwindClosing _⟩, hjumps⟩

theorem isLegible_dataLines {d : DataObject} (hname : IsSymbolName d.emittedName)
    (hsyms : ∀ v ∈ d.values, v.sym = "" ∨ IsSymbolName v.sym) (h : dataLines p d = .ok lines) :
    ∀ line ∈ lines, line.IsLegible p := by
  obtain ⟨body, hbody, rfl⟩ := dataLines_eq_ok h
  have htype : ∀ line ∈ (if p.format = .elf then [Line.objectType d.emittedName] else []),
      line.IsLegible p := by
    split
    · exact List.forall_mem_singleton.mpr hname
    · exact List.forall_mem_nil _
  simp only [List.forall_mem_append]
  exact ⟨⟨⟨⟨isLegible_alignLines _ _, isLegible_linkageLines hname _⟩, htype⟩,
    List.forall_mem_singleton.mpr hname⟩, isLegible_valueLines hsyms hbody⟩

/-- All lines of the listing of a legible unit are legible. -/
theorem isLegible_of_ofUnit {u : CodeUnit} (hu : u.IsLegible p.dialect)
    (h : ofUnit p u = .ok lines) : ∀ line ∈ lines, line.IsLegible p := by
  obtain ⟨funcs, data, hfuncs, hdata, rfl⟩ := ofUnit_eq_ok h
  obtain ⟨hname, hdefined, hmentioned, hoperations, hoperands⟩ := hu
  simp only [CodeUnit.definedNames, List.forall_mem_append, List.forall_mem_map] at hdefined
  rw [CodeUnit.mentionedNames, List.forall_mem_append] at hmentioned
  rw [List.forall_mem_flatMap] at hoperations hoperands
  have hfuncLines : ∀ line ∈ funcs.flatten, line.IsLegible p := by
    refine (forall_mem_flatten_of_mapM (Q := fun _ => True) hfuncs fun f hf _ hlines =>
      iff_true_intro ?_).mpr fun _ _ => trivial
    exact isLegible_funcLines
      (fun name hmem => hdefined.1 name (List.mem_flatMap.mpr ⟨f, hf, hmem⟩))
      (fun name hmem => hmentioned.1 name (List.mem_flatMap.mpr ⟨f, hf, hmem⟩))
      (hoperations f hf) (hoperands f hf) hlines
  have hdataLines : ∀ line ∈ data.flatten, line.IsLegible p := by
    refine (forall_mem_flatten_of_mapM (Q := fun _ => True) hdata fun d hd _ hlines =>
      iff_true_intro ?_).mpr fun _ _ => trivial
    exact isLegible_dataLines (hdefined.2 d hd)
      (fun v hv => hmentioned.2 v.sym
        (List.mem_flatMap.mpr ⟨d, hd, List.mem_map_of_mem hv⟩)) hlines
  have hheader : ∀ line ∈ header p u, line.IsLegible p := by
    rw [header, List.cons_append, List.forall_mem_cons, List.forall_mem_append]
    refine ⟨hname, ?_, ?_⟩
    · split <;> simp [Line.IsLegible]
    · split <;> simp [Line.IsLegible]
  have hfooter : ∀ line ∈ footer p, line.IsLegible p := by
    rw [footer, List.forall_mem_append]
    constructor
    · split <;> simp [Line.IsLegible]
    · split <;> simp [Line.IsLegible]
  have hsection (empty : Bool) (enter : Line) (henter : enter.IsLegible p) :
      ∀ line ∈ (if empty then [] else [enter]), line.IsLegible p := by
    split
    · exact nofun
    · exact List.forall_mem_singleton.mpr henter
  simp only [List.forall_mem_append]
  exact ⟨⟨⟨⟨⟨hheader, hsection _ _ trivial⟩, hfuncLines⟩, hsection _ _ trivial⟩, hdataLines⟩, hfooter⟩

end Listing

end CodeEmission
