import CodeEmission.Proofs.Object.Capacity
import CodeEmission.Proofs.Pipeline.InternalReferences
import CodeEmission.Proofs.Pipeline.Lifecycle

/-!
# When Writing Can Fail

The printer and the assembler refuse units that they cannot write. After the standard stages with
checks little of that is left: what the printer refuses was found before, and of what the assembler
refuses only a lack of machine code, a lack of room for a symbol field and numbers that are too large
for an object remain.

* `CodeUnit.IsWritable`: nothing in the unit is unknown to a writer.
* `Mangle.isEncoded_inst`: the stages neither bring nor take machine code.
* `output_errors_of_standard`: the output errors of a driver of the standard stages.
-/

namespace CodeEmission

/-- Whether an error is one of writing the result. -/
def EmitError.isOutput : EmitError → Bool
  | unrendered _ | refused _ => true
  | wrongState _ | noUnit | noSink | noProfile | stage _ => false

/-- Nothing in a unit is unknown to a writer on the given platform. -/
structure CodeUnit.IsWritable (p : Profile) (u : CodeUnit) : Prop where
  /-- Operands are of known kinds. -/
  kinds : ∀ f ∈ u.funcs, ∀ inst ∈ f.insts, ∀ op ∈ inst.operands, ∀ text, op.kind ≠ .other text
  /-- Machine code can be read, where there is any. -/
  encodings : ∀ f ∈ u.funcs, ∀ inst ∈ f.insts, inst.encoding ≠ "" →
    ∃ bytes, decodeEncoding inst.encoding = .ok bytes
  /-- Jump tables list labels of their functions. -/
  targets : ∀ f ∈ u.funcs, ∀ t ∈ f.jumpTables, ∀ target ∈ t.targets, target ∈ f.labels
  /-- Values have a width of data. -/
  sizes : ∀ d ∈ u.data, ∀ v ∈ d.values, v.size = 1 ∨ v.size = 2 ∨ v.size = 4 ∨ v.size = 8
  /-- There is a directive for every value. -/
  directives : ∀ d ∈ u.data, ∀ v ∈ d.values, (p.dataDirective? v.size.toInt).isSome

variable {p : Profile} {o : Options} {u : CodeUnit}

/-- After the stages a unit that passes the checks is writable. -/
theorem isWritable_standardResult (hp : p.IsUsual)
    (hverify : verify (some (standardResult p u)) = .ok ()) : (standardResult p u).IsWritable p := by
  have hfuncs : ∀ f ∈ (standardResult p u).funcs, f.WellFormed := fun f hf =>
    Func.faults_eq_nil_iff.mp (func_faults_of_verify hverify hf)
  have hdata : ∀ d ∈ (standardResult p u).data, d.WellFormed := fun d hd =>
    DataObject.faults_eq_nil_iff.mp (data_faults_of_verify hverify hd)
  constructor
  case kinds =>
    intro f hf inst hinst op hop text hkind
    have hwell := ((hfuncs f hf).insts inst hinst).operands op hop
    simp [Operand.WellFormed, hkind] at hwell
  case encodings =>
    intro f hf inst hinst hpresent
    obtain ⟨bytes, hbytes, -⟩ := ((hfuncs f hf).insts inst hinst).encoding hpresent
    exact ⟨bytes, hbytes⟩
  case targets => exact fun f hf t ht => ((hfuncs f hf).tables t ht).targets
  case sizes => exact fun d hd v hv => ((hdata d hd).values v hv).1
  case directives => exact fun d hd v hv => dataDirective?_of_standardResult hp hverify hd hv

/-- Mangling changes nothing about the machine code of an instruction. -/
theorem Mangle.isEncoded_inst {f : Func} {i : Inst} (h : i.IsEncoded) :
    (inst p (definitions p u) (Text.composed f.name) f.locals i).IsEncoded where
  encoding := h.encoding
  room := by
    intro hsome
    rw [symbolic?_inst, Option.isSome_map] at hsome
    exact h.room hsome

/-- The instructions of a unit have machine code after the stages when they had before. -/
theorem isEncoded_standardResult (h : ∀ f ∈ u.funcs, ∀ inst ∈ f.insts, inst.IsEncoded) :
    ∀ f ∈ (standardResult p u).funcs, ∀ inst ∈ f.insts, inst.IsEncoded := by
  intro f' hf' inst' hinst'
  rw [funcs_standardResult] at hf'
  obtain ⟨f, hf, rfl⟩ := List.mem_map.mp hf'
  obtain ⟨inst, hinst, rfl⟩ := List.mem_map.mp hinst'
  exact Mangle.isEncoded_inst (h f hf inst hinst)

/-- After a finished run with checks a unit has a listing. -/
theorem exists_assemblyText_of_finished (hp : p.IsUsual) (hverify : o.verify = true)
    (h : (runStages p o Stage.standard u).ending = .finished) :
    ∃ text, assemblyText p (runStages p o Stage.standard u).unit = .ok text := by
  obtain ⟨hunit, -, hresult⟩ := runStages_standard_finished hverify h
  rw [hunit]
  obtain ⟨lines, hlines⟩ :=
    Listing.exists_ok_of_verify hresult (isWritable_standardResult hp hresult).directives
  rw [assemblyText, hlines]
  exact ⟨_, rfl⟩

/-- After a finished run with checks a unit has an object, if its instructions are encoded and what
the object has to say fits. -/
theorem exists_assemble_of_finished (hverify : o.verify = true)
    (h : (runStages p o Stage.standard u).ending = .finished)
    (hencoded : ∀ f ∈ u.funcs, ∀ inst ∈ f.insts, inst.IsEncoded)
    (hfits : (standardResult p u).Fits) :
    ∃ obj, Object.assemble p (runStages p o Stage.standard u).unit = .ok obj := by
  obtain ⟨hunit, -, hresult⟩ := runStages_standard_finished hverify h
  rw [hunit]
  exact (Object.exists_assemble_iff hresult).mpr ⟨isEncoded_standardResult hencoded, hfits⟩

/-- After a finished run with checks only objects can lack a rendering, and only for one of three
reasons. -/
theorem render_error_of_finished (hp : p.IsUsual) (hverify : o.verify = true)
    (h : (runStages p o Stage.standard u).ending = .finished) {kind : FileKind} {cause : RenderError}
    (hrender : kind.render? p (runStages p o Stage.standard u).unit = some (.error cause)) :
    kind = .obj ∧
      ((∃ f ∈ u.funcs, ∃ inst ∈ f.insts, inst.encoding = "") ∨
        (∃ f ∈ u.funcs, ∃ inst ∈ f.insts, inst.symbolic?.isSome ∧ ¬inst.HasRoom) ∨
        ¬(standardResult p u).Fits) := by
  cases kind with
  | asm =>
    obtain ⟨text, htext⟩ := exists_assemblyText_of_finished hp hverify h
    simp [FileKind.render?, htext] at hrender
  | null => cases hrender
  | other name => cases hrender
  | obj =>
    refine ⟨rfl, ?_⟩
    -- without any of the reasons the unit would have been assembled
    by_contra hnone
    simp only [not_or, not_exists, not_and, not_not] at hnone
    obtain ⟨hencoding, hroom, hfits⟩ := hnone
    obtain ⟨obj, hobj⟩ := exists_assemble_of_finished hverify h
      (fun f hf inst hinst => ⟨hencoding f hf inst hinst, hroom f hf inst hinst⟩) hfits
    simp [FileKind.render?, hobj] at hrender

/-- Something is written only after the last stage. -/
theorem Emission.finished_of_write {d : Driver} {sink : Sink}
    (h : (Emission.ofDriver d p u sink).write?.isSome) :
    (Emission.ofDriver d p u sink).run.ending = .finished := by
  by_contra hending
  rw [write?_of_not_finished hending] at h
  cases h

namespace Driver

/-- A kind that is accepted as an object is asked for as an object. -/
theorem eq_obj_of_acceptKind {kind : FileKind} (h : acceptKind kind = .ok .obj) : kind = .obj := by
  unfold acceptKind at h
  split at h
  · cases h
  · cases h
  · exact Except.ok.inj h

/-- A call that is refused is not refused for its output. -/
theorem isOutput_of_emit_eq_error {d : Driver} {u? : Option CodeUnit} {sink : Sink} {err : EmitError}
    (h : d.emit u? sink = .error err) : err.isOutput = false := by
  unfold emit at h
  split at h
  · rw [← Except.error.inj h]; rfl
  · split at h
    · rw [← Except.error.inj h]; rfl
    · split at h
      · rw [← Except.error.inj h]; rfl
      · split at h
        · rw [← Except.error.inj h]; rfl
        · cases h

/-- What a configured driver of the standard stages holds. -/
theorem of_configure_standard {d : Driver} (h : (standard p).configure o = .ok d) :
    d.profile? = some p ∧ d.stages = Stage.standard ∧
      ∃ kind, acceptKind o.fileKind = .ok kind ∧ d.options = { o with fileKind := kind } := by
  obtain ⟨options, haccept, rfl⟩ := configure_eq_ok h
  obtain ⟨-, -, hkind⟩ := accept_eq_ok haccept
  exact ⟨rfl, rfl, hkind⟩

/-- A driver runs all of its stages when the request skips none. -/
theorem run_of_startAfter {d : Driver} (h : d.options.startAfter = "") (sink : Sink) :
    (Emission.ofDriver d p u sink).run = runStages p d.options d.stages u := by
  simp [Emission.ofDriver, skipCount, h]

end Driver

/-- The output errors of a driver of the standard stages that checks the unit after each of them,
skips none and has a sink that does not fail. There are none unless an object is asked for, and then
only if an instruction has no machine code, or a symbol but no room for its field, or what the object
has to say in 32 bits does not fit. Whatever comes to be written holds nothing that is unknown to a
writer. -/
theorem output_errors_of_standard {b : Bucket} {c : Conventions} {d : Driver} {sink : Sink}
    (hp : Profile.ofBucket b c = .ok p) (hd : (Driver.standard p).configure o = .ok d)
    (hverify : o.verify = true) (hstart : o.startAfter = "") (hsink : ∀ text, sink ≠ .failing text)
    (u? : Option CodeUnit) :
    (∀ err, (d.exchange (.emit u? sink)).reply.emitError? = some err → err.isOutput = true →
      o.fileKind = .obj ∧ ∃ u, u? = some u ∧
        ((∃ f ∈ u.funcs, ∃ inst ∈ f.insts, inst.encoding = "") ∨
          (∃ f ∈ u.funcs, ∃ inst ∈ f.insts, inst.symbolic?.isSome ∧ ¬inst.HasRoom) ∨
          ¬(standardResult p u).Fits)) ∧
    ∀ e, (d.exchange (.emit u? sink)).reply = .emitted e → e.write?.isSome →
      e.run.unit.IsWritable p := by
  have husual := Profile.isUsual_of_ofBucket hp
  obtain ⟨hprofile, hstages, kind, hkind, hoptions⟩ := Driver.of_configure_standard hd
  have hrun : ∀ u, (Emission.ofDriver d p u sink).run = runStages p d.options Stage.standard u := by
    intro u
    rw [Driver.run_of_startAfter (by rw [hoptions]; exact hstart), hstages]
  have hchecked : d.options.verify = true := by rw [hoptions]; exact hverify
  have hasked : d.options.fileKind = .obj → o.fileKind = .obj := by
    intro hobj
    rw [hoptions] at hobj
    obtain rfl : kind = .obj := hobj
    exact Driver.eq_obj_of_acceptKind hkind
  simp only [Driver.exchange]
  cases hemit : d.emit u? sink with
  | error cause =>
    -- the call was not taken up, so no stage was run and nothing was to be written
    refine ⟨fun err herr houtput => ?_, fun e hreply => Reply.noConfusion hreply⟩
    rw [← Option.some.inj herr, Driver.isOutput_of_emit_eq_error hemit] at houtput
    cases houtput
  | ok result =>
    obtain ⟨e, d'⟩ := result
    obtain ⟨u, q, rfl, hq, -, -, rfl, -⟩ := Driver.emit_eq_ok hemit
    obtain rfl : q = p := Option.some.inj (hq.symm.trans hprofile)
    constructor
    · intro err herr houtput
      rcases Emission.failure?_eq_some herr with ⟨failure, -, rfl, -⟩ | ⟨hfinished, hwrite⟩
      · cases houtput
      · rcases hwrite with ⟨cause, -, -, hrender⟩ | ⟨text, -, hfailing⟩
        · rw [hrun] at hfinished hrender
          obtain ⟨hobj, hreason⟩ := render_error_of_finished husual hchecked hfinished hrender
          exact ⟨hasked hobj, u, rfl, hreason⟩
        · exact absurd hfailing (hsink text)
    · intro e hreply hwrite
      rw [← Reply.emitted.inj hreply] at hwrite ⊢
      have hfinished := Emission.finished_of_write hwrite
      rw [hrun] at hfinished ⊢
      obtain ⟨hunit, -, hresult⟩ := runStages_standard_finished hchecked hfinished
      rw [hunit]
      exact isWritable_standardResult husual hresult

/-- A function whose only instruction has no machine code. -/
def unencoded : CodeUnit :=
  { name := "unencoded"
    funcs := [{ name := "main", linkage := .global, insts := [{ op := "ret" }] }] }

/-- A request for a kind of output, with checks. -/
def checkedRequest (kind : FileKind) : Options :=
  { fileKind := kind, verify := true }

/-- A driver for the host that was given such a request. -/
def checkedDriver (kind : FileKind) : Driver :=
  { Driver.standard Profile.host with options := checkedRequest kind, state := .configured }

/-- The unit has no object, for the first of the reasons, and it has a listing. -/
theorem unencoded_has_no_object :
    (Driver.standard Profile.host).configure (checkedRequest .obj) = .ok (checkedDriver .obj) ∧
      ((checkedDriver .obj).exchange (.emit (some unencoded) .accepting)).reply.emitError? =
        some (.unrendered (.object ⟨.func, "main", .noEncoding 0 "ret"⟩)) ∧
      (∃ u, some unencoded = some u ∧
        ((∃ f ∈ u.funcs, ∃ inst ∈ f.insts, inst.encoding = "") ∨
          (∃ f ∈ u.funcs, ∃ inst ∈ f.insts, inst.symbolic?.isSome ∧ ¬inst.HasRoom) ∨
          ¬(standardResult Profile.host u).Fits)) ∧
      (Driver.standard Profile.host).configure (checkedRequest .asm) = .ok (checkedDriver .asm) ∧
      ((checkedDriver .asm).exchange (.emit (some unencoded) .accepting)).reply.emitError? =
        none := by
  have hobj : (Driver.standard Profile.host).configure (checkedRequest .obj) =
      .ok (checkedDriver .obj) := rfl
  have herror : ((checkedDriver .obj).exchange (.emit (some unencoded) .accepting)).reply.emitError? =
      some (.unrendered (.object ⟨.func, "main", .noEncoding 0 "ret"⟩)) := by decide +kernel
  have hsink : ∀ text, Sink.accepting ≠ .failing text := nofun
  have hreason := (output_errors_of_standard Profile.ofTriple_host hobj rfl rfl hsink
    (some unencoded)).1 _ herror rfl
  exact ⟨hobj, herror, hreason.2, rfl, by decide +kernel⟩

end CodeEmission
