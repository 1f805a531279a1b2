import CodeEmission.Proofs.Assembly.Marks
import CodeEmission.Proofs.CodeUnit.Skeleton

/-!
# Forms of Lines

A line of a listing is a form, and texts of the unit that stand in it. The forms of a listing can be
told from the skeleton of the unit.

* `Listing.exists_ofUnit_skeleton`: the forms of a listing are those of the unit's skeleton.
* `Listing.map_form_congr`: units with one skeleton have listings of one form, line by line.
-/

namespace CodeEmission

namespace Line

/-- A line without its texts. -/
def form : Line → Line
  | banner _ => .banner ""
  | sourceFile _ => .sourceFile ""
  | exported _ => .exported ""
  | weakDefinition _ => .weakDefinition ""
  | weakReference _ => .weakReference ""
  | functionType _ => .functionType ""
  | objectType _ => .objectType ""
  | label _ => .label ""
  | cfiPersonality _ => .cfiPersonality ""
  | sehStart _ => .sehStart ""
  | sehHandler _ => .sehHandler ""
  | instruction _ operands => .instruction "" (operands.map fun _ => "")
  | tableEntry _ _ => .tableEntry "" ""
  | datum directive value => .datum directive value.skeleton
  | line => line

end Line

/-! ## Forms of a listing -/

/-- An operand that can be written can be written without its names and numbers. -/
theorem Operand.exists_text_skeleton {dialect : Dialect} {arch : Arch} {suffix text : String}
    {op : Operand} (h : op.text dialect arch suffix = .ok text) (suffix' : String) :
    ∃ text', op.skeleton.text dialect arch suffix' = .ok text' := by
  cases hkind : op.kind with
  | other word => cases dialect <;> simp [Operand.text, attText, intelText, hkind] at h
  | reg | imm | sym | label | mem =>
    cases dialect <;>
      exact ⟨_, by simp only [Operand.text, attText, intelText, skeleton, hkind]; rfl⟩

namespace Inst

theorem exists_operandTexts_skeleton {dialect : Dialect} {arch : Arch} {suffix : String} {j : Nat}
    {ops : List Operand} {texts : List String}
    (h : operandTexts dialect arch suffix j ops = .ok texts) (suffix' : String) (j' : Nat) :
    ∃ texts', operandTexts dialect arch suffix' j' (ops.map Operand.skeleton) = .ok texts' ∧
      texts'.length = texts.length := by
  induction ops generalizing j j' texts with
  | nil =>
    cases h
    exact ⟨[], rfl, rfl⟩
  | cons op rest ih =>
    rw [operandTexts] at h
    split at h
    · cases h
    next text htext =>
      split at h
      · cases h
      next later hlater =>
        obtain ⟨text', htext'⟩ := Operand.exists_text_skeleton htext suffix'
        obtain ⟨later', hlater', hlength⟩ := ih hlater (j' + 1)
        refine ⟨text' :: later', ?_, ?_⟩
        · simp only [List.map_cons, operandTexts, htext', hlater']
        · rw [← Except.ok.inj h, List.length_cons, List.length_cons, hlength]

/-- An instruction that can be written can be written without its texts, with as many operands. -/
theorem exists_parts_skeleton {dialect : Dialect} {arch : Arch} {inst : Inst}
    {parts : String × List String} (h : inst.parts dialect arch = .ok parts) :
    ∃ parts', inst.skeleton.parts dialect arch = .ok parts' ∧ parts'.2.length = parts.2.length := by
  unfold Inst.parts at h
  split at h
  · cases h
  next texts htexts =>
    obtain ⟨texts', htexts', hlength⟩ :=
      exists_operandTexts_skeleton htexts inst.skeleton.suffix 0
    have hsame : operandTexts dialect arch inst.skeleton.suffix 0 inst.skeleton.operands =
        .ok texts' := htexts'
    rw [Inst.parts, hsame, ← Except.ok.inj h]
    refine ⟨_, rfl, ?_⟩
    cases dialect <;> simp [hlength]

end Inst

namespace Listing

variable {p : Profile} {lines : List Line}

/-- Instruction lines with as many operands have one form. -/
theorem form_instruction_congr {parts parts' : String × List String}
    (h : parts'.2.length = parts.2.length) :
    (Line.instruction parts'.1 parts'.2).form = (Line.instruction parts.1 parts.2).form := by
  simp only [Line.form, List.map_const', h]

theorem exists_instLines_skeleton {func : String} {i : Nat} {insts : List Inst}
    (h : instLines p func i insts = .ok lines) (func' : String) (i' : Nat) :
    ∃ lines', instLines p func' i' (insts.map Inst.skeleton) = .ok lines' ∧
      lines'.map Line.form = lines.map Line.form := by
  induction insts generalizing i i' lines with
  | nil =>
    cases h
    exact ⟨[], rfl, rfl⟩
  | cons inst rest ih =>
    rw [instLines] at h
    split at h
    · cases h
    next operation operands hparts =>
      split at h
      · cases h
      next later hlater =>
        obtain ⟨parts', hparts', hlength⟩ := Inst.exists_parts_skeleton hparts
        obtain ⟨later', hlater', hforms⟩ := ih hlater (i' + 1)
        have hlabel : ((if inst.skeleton.label = "" then []
            else [Line.label inst.skeleton.label]).map Line.form) =
              (if inst.label = "" then [] else [Line.label inst.label]).map Line.form := by
          simp only [Inst.skeleton, Text.presence_eq_empty_iff]
          split <;> rfl
        refine ⟨_, by simp only [List.map_cons, instLines, hparts', hlater']; rfl, ?_⟩
        rw [← Except.ok.inj h, List.map_append, List.map_append, hlabel, List.map_cons,
          List.map_cons, hforms, form_instruction_congr hlength]

theorem exists_valueLines_skeleton {data : String} {i : Nat} {values : List Datum}
    (h : valueLines p data i values = .ok lines) (data' : String) (i' : Nat) :
    ∃ lines', valueLines p data' i' (values.map Datum.skeleton) = .ok lines' ∧
      lines'.map Line.form = lines.map Line.form := by
  induction values generalizing i i' lines with
  | nil =>
    cases h
    exact ⟨[], rfl, rfl⟩
  | cons v rest ih =>
    obtain ⟨directive, later, hdirective, hlater, rfl⟩ := valueLines_cons_eq_ok h
    obtain ⟨later', hlater', hforms⟩ := ih hlater (i' + 1)
    have hsame : p.dataDirective? v.skeleton.size.toInt = some directive := hdirective
    refine ⟨.datum directive v.skeleton :: later', ?_, ?_⟩
    · simp only [List.map_cons, valueLines, hsame, hlater']
    · rw [List.map_cons, List.map_cons, hforms]
      rfl

/-- The lines of a jump table have the forms of those of its skeleton. -/
theorem map_form_tableLines (t : JumpTable) :
    (tableLines p t.skeleton).map Line.form = (tableLines p t).map Line.form := by
  simp [tableLines, JumpTable.skeleton, Line.form, Function.comp_def]

theorem map_form_linkageLines (sym : String) (l : Linkage) :
    (linkageLines p "" l).map Line.form = (linkageLines p sym l).map Line.form := by
  cases l with
  | weak =>
    simp only [linkageLines]
    split <;> rfl
  | global | internal | hidden => rfl
  | other text => rfl

theorem map_form_unwindOpening (sym : String) (w : Unwind) :
    (unwindOpening "" w.skeleton).map Line.form = (unwindOpening sym w).map Line.form := by
  simp only [unwindOpening, Unwind.skeleton, Text.presence_eq_empty_iff]
  cases w.kind with
  | cfi =>
    dsimp only
    split <;> rfl
  | seh =>
    dsimp only
    split <;> rfl
  | none => rfl
  | other code => rfl

/-- The lines of a function have the forms of those of its skeleton. -/
theorem exists_funcLines_skeleton {f : Func} (h : funcLines p f = .ok lines) :
    ∃ lines', funcLines p f.skeleton = .ok lines' ∧ lines'.map Line.form = lines.map Line.form := by
  obtain ⟨body, hbody, rfl⟩ := funcLines_eq_ok h
  obtain ⟨body', hbody', hforms⟩ := exists_instLines_skeleton hbody "" 0
  have hsame : instLines p f.skeleton.name 0 f.skeleton.insts = .ok body' := hbody'
  have htables : (f.skeleton.jumpTables.flatMap (tableLines p)).map Line.form =
      (f.jumpTables.flatMap (tableLines p)).map Line.form := by
    simp only [Func.skeleton, List.map_flatMap, List.flatMap_map, map_form_tableLines]
  have htype : (if p.format = .elf then [Line.functionType ""] else []).map Line.form =
      (if p.format = .elf then [Line.functionType f.emittedName] else []).map Line.form := by
    split <;> rfl
  refine ⟨_, by simp only [funcLines, hsame]; rfl, ?_⟩
  -- the skeleton has no name, and linkage, alignment and kind of unwind record are kept
  show ((alignLines p f.align true ++ linkageLines p "" f.linkage ++
      (if p.format = .elf then [Line.functionType ""] else []) ++ [Line.label ""] ++
      unwindOpening "" f.unwind.skeleton ++ body' ++ unwindClosing f.unwind ++
      f.skeleton.jumpTables.flatMap (tableLines p)).map Line.form) = _
  simp only [List.map_append, hforms, htables, htype, map_form_linkageLines f.emittedName,
    map_form_unwindOpening f.emittedName]
  rfl

/-- The lines of a data object have the forms of those of its skeleton. -/
theorem exists_dataLines_skeleton {d : DataObject} (h : dataLines p d = .ok lines) :
    ∃ lines', dataLines p d.skeleton = .ok lines' ∧ lines'.map Line.form = lines.map Line.form := by
  obtain ⟨body, hbody, rfl⟩ := dataLines_eq_ok h
  obtain ⟨body', hbody', hforms⟩ := exists_valueLines_skeleton hbody "" 0
  have hsame : valueLines p d.skeleton.name 0 d.skeleton.values = .ok body' := hbody'
  have htype : (if p.format = .elf then [Line.objectType ""] else []).map Line.form =
      (if p.format = .elf then [Line.objectType d.emittedName] else []).map Line.form := by
    split <;> rfl
  refine ⟨_, by simp only [dataLines, hsame]; rfl, ?_⟩
  show ((alignLines p d.align false ++ linkageLines p "" d.linkage ++
      (if p.format = .elf then [Line.objectType ""] else []) ++ [Line.label ""] ++
      body').map Line.form) = _
  simp only [List.map_append, hforms, htype, map_form_linkageLines d.emittedName]
  rfl

/-- Where each member has the lines of its skeleton up to their forms, so does a list of members. -/
theorem exists_mapM_skeleton {α ε : Type} {skeleton : α → α} {f : α → Except ε (List Line)}
    (hmember : ∀ a b, f a = .ok b →
      ∃ b', f (skeleton a) = .ok b' ∧ b'.map Line.form = b.map Line.form)
    {as : List α} {bs : List (List Line)} (h : as.mapM f = .ok bs) :
    ∃ bs', (as.map skeleton).mapM f = .ok bs' ∧
      bs'.flatten.map Line.form = bs.flatten.map Line.form := by
  induction as generalizing bs with
  | nil =>
    cases h
    exact ⟨[], rfl, rfl⟩
  | cons a rest ih =>
    simp only [List.mapM_cons, bind_eq_ok_iff] at h
    obtain ⟨b, hb, later, hlater, hbs⟩ := h
    obtain ⟨b', hb', hforms⟩ := hmember a b hb
    obtain ⟨later', hlater', hrest⟩ := ih hlater
    refine ⟨b' :: later', ?_, ?_⟩
    · rw [List.map_cons, List.mapM_cons, hb', hlater']
      rfl
    · rw [← Except.ok.inj hbs, List.flatten_cons, List.flatten_cons, List.map_append,
        List.map_append, hforms, hrest]

/-- The lines before the first section have the forms of those of the skeleton. -/
theorem map_form_header (p : Profile) (u : CodeUnit) :
    (header p u.skeleton).map Line.form = (header p u).map Line.form := by
  simp only [header, CodeUnit.skeleton, ne_eq, Text.presence_eq_empty_iff, List.map_cons,
    List.map_append]
  split <;> split <;> rfl

/-- A listing has the forms of the listing of the unit's skeleton. -/
theorem exists_ofUnit_skeleton {u : CodeUnit} (h : ofUnit p u = .ok lines) :
    ∃ lines', ofUnit p u.skeleton = .ok lines' ∧ lines'.map Line.form = lines.map Line.form := by
  obtain ⟨funcs, data, hfuncs, hdata, rfl⟩ := ofUnit_eq_ok h
  obtain ⟨funcs', hfuncs', hfuncForms⟩ :=
    exists_mapM_skeleton (fun _ _ => exists_funcLines_skeleton) hfuncs
  obtain ⟨data', hdata', hdataForms⟩ :=
    exists_mapM_skeleton (fun _ _ => exists_dataLines_skeleton) hdata
  have hsame : ofUnit p u.skeleton = .ok (header p u.skeleton ++
      (if u.skeleton.funcs.isEmpty then [] else [.textSection]) ++ funcs'.flatten ++
      (if u.skeleton.data.isEmpty then [] else [.dataSection]) ++ data'.flatten ++ footer p) := by
    have hfuncs'' : u.skeleton.funcs.mapM (funcLines p) = .ok funcs' := hfuncs'
    have hdata'' : u.skeleton.data.mapM (dataLines p) = .ok data' := hdata'
    rw [ofUnit, hfuncs'', hdata'']
    rfl
  have hnoFuncs : u.skeleton.funcs.isEmpty = u.funcs.isEmpty := List.isEmpty_map
  have hnoData : u.skeleton.data.isEmpty = u.data.isEmpty := List.isEmpty_map
  refine ⟨_, hsame, ?_⟩
  simp only [List.map_append, map_form_header, hfuncForms, hdataForms, hnoFuncs, hnoData]

/-- Units with one skeleton have listings of one form, line by line. -/
theorem map_form_congr {u v : CodeUnit} {lines' : List Line} (h : u.skeleton = v.skeleton)
    (hu : ofUnit p u = .ok lines) (hv : ofUnit p v = .ok lines') :
    lines.map Line.form = lines'.map Line.form := by
  obtain ⟨bare, hbare, hforms⟩ := exists_ofUnit_skeleton hu
  obtain ⟨bare', hbare', hforms'⟩ := exists_ofUnit_skeleton hv
  rw [h, hbare'] at hbare
  rw [← hforms, ← hforms', Except.ok.inj hbare]

end Listing

end CodeEmission
