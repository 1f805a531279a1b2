import CodeEmission.Assembly.Listing
import CodeEmission.Proofs.CodeUnit.Soundness
import CodeEmission.Proofs.Object.Chunk

/-!
# Listings Taken Apart

The lines of a listing, part by part.

* `Listing.funcLines_eq_ok`, `Listing.dataLines_eq_ok`, `Listing.ofUnit_eq_ok`: which lines a part has
  when it can be written.
* `Listing.exists_ok_of_verify`: a unit that passes the checks has a listing where the platform has
  directives for its values.
-/

namespace CodeEmission

namespace Listing

variable {p : Profile} {lines : List Line}

/-! ## Which lines there are -/

/-- The lines of a function are those of its body between directives and jump tables. -/
theorem funcLines_eq_ok {f : Func} (h : funcLines p f = .ok lines) :
    ∃ body, instLines p f.name 0 f.insts = .ok body ∧
      lines = alignLines p f.align true ++ linkageLines p f.emittedName f.linkage ++
        (if p.format = .elf then [.functionType f.emittedName] else []) ++
        [.label f.emittedName] ++ unwindOpening f.emittedName f.unwind ++ body ++
        unwindClosing f.unwind ++ f.jumpTables.flatMap (tableLines p) := by
  unfold funcLines at h
  dsimp only at h
  split at h
  · cases h
  next body hbody => exact ⟨body, hbody, (Except.ok.inj h).symm⟩

/-- The lines of a data object are those of its values after directives and its label. -/
theorem dataLines_eq_ok {d : DataObject} (h : dataLines p d = .ok lines) :
    ∃ body, valueLines p d.name 0 d.values = .ok body ∧
      lines = alignLines p d.align false ++ linkageLines p d.emittedName d.linkage ++
        (if p.format = .elf then [.objectType d.emittedName] else []) ++
        [.label d.emittedName] ++ body := by
  unfold dataLines at h
  dsimp only at h
  split at h
  · cases h
  next body hbody => exact ⟨body, hbody, (Except.ok.inj h).symm⟩

/-- The lines of values: one for each, with the directive of its width. -/
theorem valueLines_cons_eq_ok {data : String} {i : Nat} {v : Datum} {rest : List Datum}
    (h : valueLines p data i (v :: rest) = .ok lines) :
    ∃ directive later, p.dataDirective? v.size.toInt = some directive ∧
      valueLines p data (i + 1) rest = .ok later ∧ lines = .datum directive v :: later := by
  rw [valueLines] at h
  split at h
  · cases h
  next directive hdirective =>
    split at h
    · cases h
    next later hlater => exact ⟨directive, later, hdirective, hlater, (Except.ok.inj h).symm⟩

/-- A listing is the functions and the data objects, each after the line that enters their section,
between a header and a footer. -/
theorem ofUnit_eq_ok {u : CodeUnit} (h : ofUnit p u = .ok lines) :
    ∃ funcs data, u.funcs.mapM (funcLines p) = .ok funcs ∧
      u.data.mapM (dataLines p) = .ok data ∧
      lines = header p u ++ (if u.funcs.isEmpty then [] else [.textSection]) ++ funcs.flatten ++
        (if u.data.isEmpty then [] else [.dataSection]) ++ data.flatten ++ footer p := by
  simp only [ofUnit, bind_eq_ok_iff] at h
  obtain ⟨funcs, hfuncs, data, hdata, hlines⟩ := h
  exact ⟨funcs, data, hfuncs, hdata, (Except.ok.inj hlines).symm⟩

/-! ## Which units have a listing -/

theorem exists_operandTexts {ops : List Operand} (h : ∀ op ∈ ops, ∀ text, op.kind ≠ .other text)
    (dialect : Dialect) (arch : Arch) (suffix : String) (j : Nat) :
    ∃ texts, Inst.operandTexts dialect arch suffix j ops = .ok texts := by
  induction ops generalizing j with
  | nil => exact ⟨[], rfl⟩
  | cons op rest ih =>
    obtain ⟨hop, hrest⟩ := List.forall_mem_cons.mp h
    obtain ⟨text, htext⟩ : ∃ text, op.text dialect arch suffix = .ok text := by
      cases hkind : op.kind <;> cases dialect <;>
        first
          | exact absurd hkind (hop _)
          | exact ⟨_, by simp only [Operand.text, Operand.attText, Operand.intelText, hkind]; rfl⟩
    obtain ⟨texts, htexts⟩ := ih hrest (j + 1)
    exact ⟨text :: texts, by simp only [Inst.operandTexts, htext, htexts]⟩

theorem exists_instLines {insts : List Inst}
    (h : ∀ inst ∈ insts, ∀ op ∈ inst.operands, ∀ text, op.kind ≠ .other text) (p : Profile)
    (func : String) (i : Nat) :
    ∃ lines, instLines p func i insts = .ok lines := by
  induction insts generalizing i with
  | nil => exact ⟨[], rfl⟩
  | cons inst rest ih =>
    obtain ⟨hinst, hrest⟩ := List.forall_mem_cons.mp h
    obtain ⟨texts, htexts⟩ := exists_operandTexts hinst p.dialect p.arch inst.suffix 0
    obtain ⟨⟨operation, operands⟩, hparts⟩ :
        ∃ parts, inst.parts p.dialect p.arch = .ok parts := by
      rw [Inst.parts, htexts]
      exact ⟨_, rfl⟩
    obtain ⟨later, hlater⟩ := ih hrest (i + 1)
    simp only [instLines, hparts, hlater]
    exact ⟨_, rfl⟩

theorem exists_valueLines {values : List Datum}
    (h : ∀ v ∈ values, (p.dataDirective? v.size.toInt).isSome) (data : String) (i : Nat) :
    ∃ lines, valueLines p data i values = .ok lines := by
  induction values generalizing i with
  | nil => exact ⟨[], rfl⟩
  | cons v rest ih =>
    obtain ⟨hv, hrest⟩ := List.forall_mem_cons.mp h
    obtain ⟨directive, hdirective⟩ := Option.isSome_iff_exists.mp hv
    obtain ⟨later, hlater⟩ := ih hrest (i + 1)
    simp only [valueLines, hdirective, hlater]
    exact ⟨_, rfl⟩

/-- Lists that can be made one by one can be made together. -/
theorem exists_mapM {α β ε : Type} {f : α → Except ε β} {as : List α}
    (h : ∀ a ∈ as, ∃ b, f a = .ok b) : ∃ bs, as.mapM f = .ok bs := by
  induction as with
  | nil => exact ⟨[], rfl⟩
  | cons a rest ih =>
    obtain ⟨⟨b, hb⟩, hrest⟩ := List.forall_mem_cons.mp h
    obtain ⟨bs, hbs⟩ := ih hrest
    refine ⟨b :: bs, ?_⟩
    rw [List.mapM_cons, bind_eq_ok_iff]
    exact ⟨b, hb, bind_eq_ok_iff.mpr ⟨bs, hbs, rfl⟩⟩

/-- A unit that passes the checks has a listing where there are directives for its values. -/
theorem exists_ok_of_verify {u : CodeUnit} (hverify : verify (some u) = .ok ())
    (hdata : ∀ d ∈ u.data, ∀ v ∈ d.values, (p.dataDirective? v.size.toInt).isSome) :
    ∃ lines, ofUnit p u = .ok lines := by
  obtain ⟨funcs, hfuncs⟩ : ∃ funcs, u.funcs.mapM (funcLines p) = .ok funcs := by
    refine exists_mapM fun f hf => ?_
    have hknown : ∀ inst ∈ f.insts, ∀ op ∈ inst.operands, ∀ text, op.kind ≠ .other text := by
      intro inst hinst op hop text hkind
      obtain ⟨i, hi⟩ := List.mem_iff_getElem?.mp hinst
      obtain ⟨j, hj⟩ := List.mem_iff_getElem?.mp hop
      have hfaults := Func.operand_faults_of_faultless (func_faults_of_verify hverify hf) hi hj
      simp [Operand.faults, hkind] at hfaults
    obtain ⟨body, hbody⟩ := exists_instLines hknown p f.name 0
    simp only [funcLines, hbody]
    exact ⟨_, rfl⟩
  obtain ⟨data, hdata⟩ : ∃ data, u.data.mapM (dataLines p) = .ok data := by
    refine exists_mapM fun d hd => ?_
    obtain ⟨body, hbody⟩ := exists_valueLines (hdata d hd) d.name 0
    simp only [dataLines, hbody]
    exact ⟨_, rfl⟩
  rw [ofUnit, hfuncs, hdata]
  exact ⟨_, rfl⟩

end Listing

end CodeEmission
