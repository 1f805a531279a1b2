import CodeEmission.Proofs.Assembly.Parts
import CodeEmission.Proofs.CodeUnit.DefinedNames

/-!
# Labels, Instructions and Linkage in a Listing

Of the lines of a listing, labels and instructions come from the unit. `Line.isMark` picks them.
`Line.isLinkage` picks those that say which section comes next and who sees a symbol. All other lines
say how to read these.

* `Listing.filter_isEssential_funcLines`, `Listing.filter_isEssential_dataLines`: of a function or a
  data object both sorts of lines together are the lines of its linkage, then its labels and
  instructions.
* `Listing.filter_isMark_ofUnit`: the labels and instructions of a listing are those of its functions
  and data objects, in order.
* `Listing.exists_parts_of_ofUnit`: a unit with a listing has no instruction that cannot be written.
* `Listing.filterMap_label?`: the label lines of a listing name what the unit defines.
-/

namespace CodeEmission

/-- Whether a line is a label or an instruction. -/
def Line.isMark : Line → Bool
  | label _ | instruction _ _ => true
  | _ => false

/-- Whether a line says which section comes next or who sees a symbol. -/
def Line.isLinkage : Line → Bool
  | textSection | dataSection | nonexecStack => true
  | exported _ | weakDefinition _ | weakReference _ => true
  | _ => false

/-- Whether a line is of one of the two sorts. -/
def Line.isEssential (line : Line) : Bool :=
  line.isMark || line.isLinkage

/-- The name that a line defines. -/
def Line.label? : Line → Option String
  | label sym => some sym
  | _ => none

@[simp]
theorem Line.isEssential_label (sym : String) : (label sym).isEssential = true := rfl

/-- A line that defines a name is kept. -/
theorem Line.isMark_of_label? {line : Line} {name : String} (h : line.label? = some name) :
    line.isMark = true := by
  unfold Line.label? at h
  split at h
  · rfl
  · cases h

/-- The label and the line of an instruction. -/
def Inst.marks (p : Profile) (inst : Inst) : List Line :=
  inst.labels.map .label ++
    match inst.parts p.dialect p.arch with
    | .ok (operation, operands) => [.instruction operation operands]
    | .error _ => []

/-- The labels and instructions of a function. -/
def Func.marks (p : Profile) (f : Func) : List Line :=
  .label f.emittedName ::
    (f.insts.flatMap (Inst.marks p) ++ f.jumpTables.map fun t => .label t.label)

theorem Func.isMark_of_mem_marks {p : Profile} (f : Func) {line : Line} (h : line ∈ f.marks p) :
    line.isMark = true := by
  have hinst : ∀ inst : Inst, ∀ line ∈ inst.marks p, line.isMark = true := by
    intro inst line hline
    rcases List.mem_append.mp hline with hline | hline
    · obtain ⟨sym, -, rfl⟩ := List.mem_map.mp hline
      rfl
    · split at hline
      · rw [List.mem_singleton.mp hline]
        rfl
      · cases hline
  rcases List.mem_cons.mp h with rfl | h
  · rfl
  rcases List.mem_append.mp h with h | h
  · obtain ⟨inst, -, hline⟩ := List.mem_flatMap.mp h
    exact hinst inst line hline
  · obtain ⟨t, -, rfl⟩ := List.mem_map.mp h
    rfl

/-- What is computed part by part from lists that were made one by one is computed from the members
they were made of. -/
theorem flatten_of_mapM {α β γ ε : Type} {f : α → Except ε (List β)} {φ : List β → List γ}
    {g : α → List γ} (hnil : φ [] = []) (happend : ∀ x y, φ (x ++ y) = φ x ++ φ y)
    (hmember : ∀ a b, f a = .ok b → φ b = g a) {as : List α} {bs : List (List β)}
    (h : as.mapM f = .ok bs) : φ bs.flatten = as.flatMap g := by
  induction as generalizing bs with
  | nil =>
    cases h
    exact hnil
  | cons a rest ih =>
    simp only [List.mapM_cons, bind_eq_ok_iff] at h
    obtain ⟨b, hb, later, hlater, hbs⟩ := h
    rw [← Except.ok.inj hbs, List.flatten_cons, happend, hmember a b hb, ih hlater,
      List.flatMap_cons]

/-- What holds of all members of lists that were made one by one is what holds of the members they were
made of. -/
theorem forall_mem_flatten_of_mapM {α β ε : Type} {f : α → Except ε (List β)} {P : β → Prop}
    {Q : α → Prop} {as : List α} {bs : List (List β)} (h : as.mapM f = .ok bs)
    (hmember : ∀ a ∈ as, ∀ b, f a = .ok b → ((∀ x ∈ b, P x) ↔ Q a)) :
    (∀ x ∈ bs.flatten, P x) ↔ ∀ a ∈ as, Q a := by
  induction as generalizing bs with
  | nil =>
    cases h
    simp
  | cons a rest ih =>
    simp only [List.mapM_cons, bind_eq_ok_iff] at h
    obtain ⟨b, hb, later, hlater, hbs⟩ := h
    obtain ⟨ha, hrest⟩ := List.forall_mem_cons.mp hmember
    rw [← Except.ok.inj hbs, List.flatten_cons, List.forall_mem_append, List.forall_mem_cons,
      ha b hb, ih hlater hrest]

/-- What is read off the members that are kept is read off the list, where the others give nothing. -/
theorem filterMap_filter_of_isSome {α β : Type} {q : α → Option β} {keep : α → Bool}
    (h : ∀ a b, q a = some b → keep a = true) (as : List α) :
    (as.filter keep).filterMap q = as.filterMap q := by
  rw [List.filterMap_filter]
  refine congrArg (as.filterMap ·) (funext fun a => ?_)
  split
  · rfl
  next hother =>
    refine (Option.eq_none_iff_forall_ne_some.mpr fun b hb => ?_).symm
    exact hother (h a b hb)

/-- Of lists that were made one by one, each was made. -/
theorem exists_ok_of_mapM {α β ε : Type} {f : α → Except ε β} {as : List α} {bs : List β}
    (h : as.mapM f = .ok bs) {a : α} (ha : a ∈ as) : ∃ b, f a = .ok b := by
  induction as generalizing bs with
  | nil => cases ha
  | cons head rest ih =>
    simp only [List.mapM_cons, bind_eq_ok_iff] at h
    obtain ⟨b, hb, later, hlater, -⟩ := h
    rcases List.mem_cons.mp ha with rfl | ha
    · exact ⟨b, hb⟩
    · exact ih hlater ha

/-- An instruction names its label. -/
theorem Inst.filterMap_label?_marks (p : Profile) (inst : Inst) :
    (inst.marks p).filterMap Line.label? = inst.labels := by
  have hlabels : (inst.labels.map Line.label).filterMap Line.label? = inst.labels := by
    rw [List.filterMap_map]
    exact List.filterMap_some
  rw [marks, List.filterMap_append, hlabels]
  split
  · exact List.append_nil _
  · exact List.append_nil _

/-- A function names what it defines. -/
theorem Func.filterMap_label?_marks (p : Profile) (f : Func) :
    (f.marks p).filterMap Line.label? = f.definedNames := by
  have htables : (f.jumpTables.map fun t => Line.label t.label).filterMap Line.label? =
      f.jumpTables.map JumpTable.label := by
    rw [List.filterMap_map, ← List.filterMap_eq_map]
    rfl
  rw [marks, List.filterMap_cons, List.filterMap_append, htables, List.filterMap_flatMap]
  simp only [Inst.filterMap_label?_marks]
  rw [definedNames, labels_eq_flatMap]
  rfl

namespace Listing

variable {p : Profile} {lines : List Line}

@[simp]
theorem filter_isEssential_alignLines (align : Int64) (fill : Bool) :
    (alignLines p align fill).filter Line.isEssential = [] := by
  unfold alignLines
  split <;> rfl

@[simp]
theorem filter_isEssential_linkageLines (sym : String) (l : Linkage) :
    (linkageLines p sym l).filter Line.isEssential = linkageLines p sym l := by
  unfold linkageLines
  split
  · rfl
  · split <;> rfl
  · rfl

@[simp]
theorem filter_isEssential_unwindOpening (sym : String) (u : Unwind) :
    (unwindOpening sym u).filter Line.isEssential = [] := by
  unfold unwindOpening
  split
  · split <;> rfl
  · split <;> rfl
  · rfl

@[simp]
theorem filter_isEssential_unwindClosing (u : Unwind) :
    (unwindClosing u).filter Line.isEssential = [] := by
  unfold unwindClosing
  split <;> rfl

/-- The lines of a body are the labels and lines of its instructions, all of which can be written. -/
theorem filter_isEssential_instLines {func : String} {i : Nat} {insts : List Inst}
    (h : instLines p func i insts = .ok lines) :
    lines.filter Line.isEssential = insts.flatMap (Inst.marks p) ∧
      ∀ inst ∈ insts, ∃ parts, inst.parts p.dialect p.arch = .ok parts := by
  induction insts generalizing i lines with
  | nil =>
    cases h
    exact ⟨rfl, nofun⟩
  | cons inst rest ih =>
    rw [instLines] at h
    split at h
    · cases h
    next operation operands hparts =>
      split at h
      · cases h
      next later hlater =>
        obtain ⟨hmarks, hwritable⟩ := ih hlater
        constructor
        -- a label line comes first, if the instruction has a label
        · rw [← Except.ok.inj h, List.filter_append, List.filter_cons_of_pos rfl, hmarks,
            List.flatMap_cons, Inst.marks, Inst.labels, hparts]
          split <;> simp [List.filter_cons]
        · exact List.forall_mem_cons.mpr ⟨⟨_, hparts⟩, hwritable⟩

/-- A jump table defines its label. -/
theorem filter_isEssential_tableLines (t : JumpTable) :
    (tableLines p t).filter Line.isEssential = [.label t.label] := by
  have hentries : (t.targets.map (Line.tableEntry · t.label)).filter Line.isEssential = [] := by
    simp [List.filter_map, Function.comp_def, Line.isEssential, Line.isMark, Line.isLinkage]
  unfold tableLines
  split
  · simp [hentries, Line.isEssential, Line.isMark, Line.isLinkage]
  · simp [List.filter_cons, hentries]

/-- Of the lines of a function there remain those of its linkage, then its labels and instructions,
all of which can be written. -/
theorem filter_isEssential_funcLines {f : Func} (h : funcLines p f = .ok lines) :
    lines.filter Line.isEssential = linkageLines p f.emittedName f.linkage ++ f.marks p ∧
      ∀ inst ∈ f.insts, ∃ parts, inst.parts p.dialect p.arch = .ok parts := by
  obtain ⟨body, hbody, rfl⟩ := funcLines_eq_ok h
  obtain ⟨hmarks, hwritable⟩ := filter_isEssential_instLines hbody
  have htype : (if p.format = .elf then [Line.functionType f.emittedName] else []).filter
      Line.isEssential = [] := by
    split <;> rfl
  have htables : (f.jumpTables.flatMap (tableLines p)).filter Line.isEssential =
      f.jumpTables.map fun t => .label t.label := by
    rw [List.filter_flatMap]
    simp only [filter_isEssential_tableLines]
    exact List.map_eq_flatMap.symm
  refine ⟨?_, hwritable⟩
  simp [List.filter_cons, Func.marks, hmarks, htype, htables]

theorem filter_isEssential_valueLines {data : String} {i : Nat} {values : List Datum}
    (h : valueLines p data i values = .ok lines) : lines.filter Line.isEssential = [] := by
  induction values generalizing i lines with
  | nil =>
    cases h
    rfl
  | cons v rest ih =>
    obtain ⟨directive, later, -, hlater, rfl⟩ := valueLines_cons_eq_ok h
    rw [List.filter_cons_of_neg (by simp [Line.isEssential, Line.isMark, Line.isLinkage]),
      ih hlater]

/-- Of the lines of a data object there remain those of its linkage, then its label. -/
theorem filter_isEssential_dataLines {d : DataObject} (h : dataLines p d = .ok lines) :
    lines.filter Line.isEssential =
      linkageLines p d.emittedName d.linkage ++ [.label d.emittedName] := by
  obtain ⟨body, hbody, rfl⟩ := dataLines_eq_ok h
  have htype : (if p.format = .elf then [Line.objectType d.emittedName] else []).filter
      Line.isEssential = [] := by
    split <;> rfl
  simp [List.filter_cons, htype, filter_isEssential_valueLines hbody]

/-! ## One sort at a time -/

/-- The lines of a linkage name its symbol. -/
theorem mem_linkageLines {sym : String} {l : Linkage} {line : Line}
    (h : line ∈ linkageLines p sym l) :
    line = .exported sym ∨ line = .weakDefinition sym ∨ line = .weakReference sym := by
  unfold linkageLines at h
  split at h
  · exact .inl (List.mem_singleton.mp h)
  · split at h
    · exact .inr (.inr (List.mem_singleton.mp h))
    · rcases List.mem_cons.mp h with h | h
      · exact .inl h
      · exact .inr (.inl (List.mem_singleton.mp h))
  · cases h

/-- Where there remain a linkage and then marks, each of the two sorts is one of the two parts. -/
theorem filter_of_isEssential {sym : String} {l : Linkage} {marks : List Line}
    (h : lines.filter Line.isEssential = linkageLines p sym l ++ marks)
    (hmarks : ∀ line ∈ marks, line.isMark = true) :
    lines.filter Line.isMark = marks ∧ lines.filter Line.isLinkage = linkageLines p sym l := by
  -- a sort is picked out of the lines that remain, and then out of each of their parts
  have hsort : ∀ keep : Line → Bool, (∀ line, keep line = true → line.isEssential = true) →
      lines.filter keep = (linkageLines p sym l ++ marks).filter keep := by
    intro keep hkeep
    rw [← h, List.filter_filter]
    refine List.filter_congr fun line _ => ?_
    cases hline : keep line with
    | false => rfl
    | true => rw [hkeep line hline, Bool.and_self]
  have hlinkage : ∀ line ∈ linkageLines p sym l, line.isMark = false ∧ line.isLinkage = true := by
    intro line hline
    rcases mem_linkageLines hline with rfl | rfl | rfl <;> exact ⟨rfl, rfl⟩
  have hmark : ∀ line ∈ marks, line.isLinkage = false := by
    intro line hline
    have hmark := hmarks line hline
    cases line <;> first | rfl | cases hmark
  constructor
  · rw [hsort Line.isMark fun line hline => by simp [Line.isEssential, hline], List.filter_append,
      List.filter_eq_nil_iff.mpr fun line hline => by simp [hlinkage line hline],
      List.filter_eq_self.mpr hmarks, List.nil_append]
  · rw [hsort Line.isLinkage fun line hline => by simp [Line.isEssential, hline],
      List.filter_append, List.filter_eq_self.mpr fun line hline => (hlinkage line hline).2,
      List.filter_eq_nil_iff.mpr fun line hline => by simp [hmark line hline], List.append_nil]

/-- Of the lines of a function, the labels and instructions, and those that are about its linkage. -/
theorem filter_funcLines {f : Func} (h : funcLines p f = .ok lines) :
    lines.filter Line.isMark = f.marks p ∧
      lines.filter Line.isLinkage = linkageLines p f.emittedName f.linkage :=
  filter_of_isEssential (filter_isEssential_funcLines h).1 fun _ => f.isMark_of_mem_marks

/-- Of the lines of a data object, its label, and those that are about its linkage. -/
theorem filter_dataLines {d : DataObject} (h : dataLines p d = .ok lines) :
    lines.filter Line.isMark = [.label d.emittedName] ∧
      lines.filter Line.isLinkage = linkageLines p d.emittedName d.linkage :=
  filter_of_isEssential (filter_isEssential_dataLines h) (List.forall_mem_singleton.mpr rfl)

section OfUnit

variable {u : CodeUnit} (h : ofUnit p u = .ok lines)

include h

/-- The labels and instructions of a listing are those of the functions and then those of the data
objects. -/
theorem filter_isMark_ofUnit :
    lines.filter Line.isMark =
      u.funcs.flatMap (Func.marks p) ++ u.data.map fun d => .label d.emittedName := by
  obtain ⟨funcs, data, hfuncs, hdata, rfl⟩ := ofUnit_eq_ok h
  -- around the functions and data objects there are only directives
  have hheader : (header p u).filter Line.isMark = [] := by
    unfold header
    split <;> split <;> rfl
  have hfooter : (footer p).filter Line.isMark = [] := by
    unfold footer
    split <;> split <;> rfl
  have htext : (if u.funcs.isEmpty then [] else [Line.textSection]).filter Line.isMark = [] := by
    split <;> rfl
  have hdataSection : (if u.data.isEmpty then [] else [Line.dataSection]).filter Line.isMark =
      [] := by
    split <;> rfl
  have hfuncMarks := flatten_of_mapM (φ := List.filter Line.isMark) rfl List.filter_append
    (fun _ _ hf => (filter_funcLines hf).1) hfuncs
  have hdataMarks := flatten_of_mapM (φ := List.filter Line.isMark) rfl List.filter_append
    (fun _ _ hd => (filter_dataLines hd).1) hdata
  simp only [List.filter_append, hheader, hfooter, htext, hdataSection, hfuncMarks, hdataMarks,
    List.nil_append, List.append_nil, List.map_eq_flatMap]

/-- In a unit that has a listing every instruction can be written. -/
theorem exists_parts_of_ofUnit {inst : Inst} (hinst : inst ∈ u.funcs.flatMap Func.insts) :
    ∃ parts, inst.parts p.dialect p.arch = .ok parts := by
  obtain ⟨funcs, -, hfuncs, -⟩ := ofUnit_eq_ok h
  obtain ⟨f, hf, hmem⟩ := List.mem_flatMap.mp hinst
  obtain ⟨flines, hflines⟩ := exists_ok_of_mapM hfuncs hf
  exact (filter_isEssential_funcLines hflines).2 inst hmem

/-- What is read off labels and instructions alone is read off the functions and data objects. -/
theorem filterMap_of_isMark {γ : Type} {q : Line → Option γ}
    (hq : ∀ line x, q line = some x → line.isMark = true) :
    lines.filterMap q =
      u.funcs.flatMap (fun f => (f.marks p).filterMap q) ++
        (u.data.map fun d => .label d.emittedName).filterMap q := by
  rw [← filterMap_filter_of_isSome hq, filter_isMark_ofUnit h, List.filterMap_append, List.filterMap_flatMap]

/-- The label lines of a listing name what the unit defines, in order. -/
theorem filterMap_label? : lines.filterMap Line.label? = u.definedNames := by
  have hdata : (u.data.map fun d => Line.label d.emittedName).filterMap Line.label? =
      u.data.map DataObject.emittedName := by
    rw [List.filterMap_map, ← List.filterMap_eq_map]
    rfl
  rw [filterMap_of_isMark h fun _ _ => Line.isMark_of_label?, hdata]
  simp only [Func.filterMap_label?_marks]
  rfl

end OfUnit

end Listing

end CodeEmission
