import CodeEmission.Proofs.Assembly.Legibility
import CodeEmission.Proofs.CodeUnit.Source
import CodeEmission.Proofs.Object.Placement
import CodeEmission.Proofs.Pipeline.Exports
import CodeEmission.Proofs.Platform.Host

/-!
# Where the Listing and the Object Agree

The listing of a unit and its object are written apart from each other, and both refer to symbols.
For each instruction this module compares what its printed operands show with what its relocations
are for: symbols with displacements, in order.

The printer goes by the kind of an operand. A symbol or label is printed without a displacement and a
memory operand with one. The assembler takes the first operand that carries a symbol, of whatever
kind, with whatever displacement, and leaves out the others.

* `references_of_instRelocs`: the relocation of an instruction is for the symbol and displacement
  of its first operand with a symbol.
* `Inst.FixupShown`: one operand shows a symbol, and the first operand with a symbol carries what it
  shows.
* `Inst.exists_readLine`: the line of an instruction says what its operands show.
* `writers_agree_iff`: after a finished run of the standard stages, the listing and the object agree
  on an instruction exactly when its fixup is shown. Of a legible unit that holds for the assembly text
  as an assembler reads it.

A call with a displacement is an instruction on which they do not (`displaced_call_disagrees`).
-/

namespace CodeEmission

/-- The symbol and displacement that a relocation is for, in an instruction of the given length at
`place`. A displacement from the field is brought to the end of the instruction. -/
def Reloc.reference (place length : Nat) (r : Reloc) : String × Int64 :=
  (r.symbol,
    match r.kind with
    | .pcRel32 => r.addend + Int64.ofInt (length - (r.offset.toNat - place))
    | _ => r.addend)

/-- The displacement that an operand with a symbol is printed with. -/
def Operand.shownDisp (op : Operand) : Int64 :=
  if op.kind = .mem then op.disp else 0

/-- No operand carries a symbol; or one operand shows a symbol, and the first operand that carries
one carries what is shown. -/
def Inst.FixupShown (inst : Inst) : Prop :=
  (∀ op ∈ inst.operands, op.sym = "") ∨
    ∃ op first, inst.operands.filter (fun op => op.shown?.isSome) = [op] ∧
      inst.symbolic? = some first ∧ first.sym = op.sym ∧ first.disp = op.shownDisp

/-- An operand that shows a symbol shows its own. -/
theorem Operand.shown?_eq_some {op : Operand} (h : op.shown?.isSome) :
    op.shown? = some (op.sym, op.shownDisp) := by
  unfold shown? at h ⊢
  unfold shownDisp
  cases hkind : op.kind with
  | sym | label => rfl
  | mem =>
    by_cases hsym : op.sym = ""
    · simp [hkind, hsym] at h
    · simp [hsym]
  | reg | imm | other text => simp [hkind] at h

/-- The symbols that operands show are those of the operands that show one. -/
theorem filterMap_shown? (ops : List Operand) :
    ops.filterMap Operand.shown? =
      (ops.filter fun op => op.shown?.isSome).map fun op => (op.sym, op.shownDisp) := by
  induction ops with
  | nil => rfl
  | cons op rest ih =>
    rw [List.filterMap_cons, List.filter_cons]
    by_cases hshown : op.shown?.isSome
    · rw [Operand.shown?_eq_some hshown, ih]
      rfl
    · rw [Option.not_isSome_iff_eq_none.mp hshown, ih]
      rfl

/-- In an instruction whose symbol and label operands carry a symbol, what is shown is what the first
operand with a symbol carries exactly when the fixup is shown. -/
theorem Inst.shown_eq_fixup_iff {inst : Inst}
    (h : ∀ op ∈ inst.operands, op.kind = .sym ∨ op.kind = .label → op.sym ≠ "") :
    inst.operands.filterMap Operand.shown? =
        (inst.symbolic?.map fun op => (op.sym, op.disp)).toList ↔ inst.FixupShown := by
  rw [filterMap_shown?]
  cases hfirst : inst.symbolic? with
  | none =>
    have hplain : ∀ op ∈ inst.operands, op.sym = "" := by
      simpa [symbolic?] using hfirst
    have hnone : inst.operands.filter (fun op => op.shown?.isSome) = [] := by
      rw [List.filter_eq_nil_iff]
      intro op hop hshown
      have hsym := hplain op hop
      unfold Operand.shown? at hshown
      split at hshown
      next hkind => exact h op hop (.inl hkind) hsym
      next hkind => exact h op hop (.inr hkind) hsym
      · simp [hsym] at hshown
      · cases hshown
    rw [hnone]
    exact ⟨fun _ => .inl hplain, fun _ => rfl⟩
  | some first =>
    have hcarries : first.sym ≠ "" := by simpa using List.find?_some hfirst
    rw [Option.map_some, Option.toList_some]
    constructor
    · intro hshown
      obtain ⟨op, hone, hpair⟩ := List.map_eq_singleton_iff.mp hshown
      obtain ⟨hsym, hdisp⟩ := Prod.mk.inj hpair
      exact .inr ⟨op, first, hone, hfirst, hsym.symm, hdisp.symm⟩
    · rintro (hplain | ⟨op, first', hone, hfirst', hsym, hdisp⟩)
      · exact absurd (hplain first (List.mem_of_find?_eq_some hfirst)) hcarries
      · obtain rfl := Option.some.inj (hfirst.symm.trans hfirst')
        rw [hone, List.map_singleton, hsym, hdisp]

/-- The relocations of an instruction are for the symbol and displacement of its first operand with a
symbol. -/
theorem references_of_instRelocs {p : Profile} {i place : Nat} {inst : Inst} {bytes : List UInt8}
    {relocs : List Reloc} (hbound : place + bytes.length < 2 * UInt32.size)
    (h : instRelocs p i place inst bytes = .ok relocs) :
    relocs.map (Reloc.reference place bytes.length) =
      (inst.symbolic?.map fun op => (op.sym, op.disp)).toList := by
  rcases instRelocs_eq_ok hbound h with ⟨hnone, rfl⟩ | ⟨op, offset, hop, -, -, hoffset, rfl⟩
  · rw [hnone]
    rfl
  · have hfield : (offset.toNat : Int) - place = inst.fieldAt bytes.length := by omega
    rw [hop, List.map_singleton, Option.map_some, Option.toList_some]
    split
    · rfl
    · simp only [Reloc.reference, hfield, Int64.sub_add_cancel]

/-- A list in another order is the list of an optional value when the list itself is. -/
theorem eq_toList_iff_of_perm {α : Type} {as bs : List α} (h : as.Perm bs) (x : Option α) :
    as = x.toList ↔ bs = x.toList := by
  cases x with
  | none =>
    constructor
    · rintro rfl
      exact h.symm.eq_nil
    · rintro rfl
      exact h.eq_nil
  | some a =>
    constructor
    · rintro rfl
      exact List.perm_singleton.mp h.symm
    · rintro rfl
      exact List.perm_singleton.mp h

/-! ## What the text shows -/

/-- The symbol and displacement that an operand says, read from its text. -/
def Denotation.reference? : Denotation → Option (String × Int)
  | symbol name => some (name, 0)
  | address _ (some sym) disp => some (sym, disp)
  | _ => none

/-- A symbol with its displacement as a number. -/
def plainReference (r : String × Int64) : String × Int :=
  (r.1, r.2.toInt)

theorem plainReference_injective : Function.Injective plainReference := by
  rintro ⟨sym, disp⟩ ⟨sym', disp'⟩ h
  obtain ⟨hsym, hdisp⟩ := Prod.mk.inj h
  exact Prod.ext hsym (Int64.toInt_inj.mp hdisp)

namespace Operand

variable {op : Operand} {locals : List String}

/-- What an operand stands for has the symbol and displacement that it shows. -/
theorem reference?_denotation {arch : Arch} {d : Denotation} (h : op.denotation? arch = some d) :
    d.reference? = op.shown?.map plainReference := by
  unfold denotation? at h
  unfold shown?
  cases hkind : op.kind with
  | other text => simp [hkind] at h
  | mem =>
    simp only [hkind, Option.some.injEq] at h
    subst h
    by_cases hsym : op.sym = ""
    · simp [ Denotation.reference?, hsym]
    · simp [ Denotation.reference?, hsym, plainReference]
  | reg | imm | sym | label =>
    simp only [hkind, Option.some.injEq] at h
    subst h
    rfl

/-- The text of an operand is read, with the symbol and displacement that the operand shows. -/
theorem exists_readOperand (dialect : Dialect) (arch : Arch) (suffix : String)
    (hwell : op.WellFormed locals) (hnames : ∀ name ∈ op.shownNames, Dialect.IsIdentifier name) :
    ∃ text d, op.text dialect arch suffix = .ok text ∧ ',' ∉ text.toList ∧
      dialect.readOperand op.outline text.toList = some d ∧
      d.reference? = op.shown?.map plainReference := by
  obtain ⟨text, htext, hcomma, hread⟩ := readOperand_text_iff dialect arch suffix hwell hnames
  by_cases hwraps : dialect = .intel ∧ op.NegationWraps
  · -- the displacement is read wrongly, but no symbol goes with it
    obtain ⟨rfl, hkind, hsym, -⟩ := hwraps
    have hbase : Dialect.IsIdentifier op.base := hnames op.base (by simp [shownNames, hkind])
    have hname : Dialect.IsIdentifier op.sym := hnames op.sym (by simp [shownNames, hkind])
    have hmemory := readIntel_intelAddress arch suffix hkind hwell hbase hname
    have hsame : intelWidth suffix ++ "[" ++ op.intelAddress arch ++ "]" = text := by
      simpa [Operand.text, intelText, hkind] using htext
    rw [hsame, if_pos hsym] at hmemory
    exact ⟨text, _, htext, hcomma, hmemory, by simp [ Denotation.reference?, shown?, hkind, hsym]⟩
  · obtain ⟨ds, hds⟩ := exists_denotations arch (List.forall_mem_singleton.mpr hwell)
    obtain ⟨d, hd, -⟩ : ∃ d, op.denotation? arch = some d ∧ [d] = ds := by
      simpa [List.mapM_cons, Option.bind_eq_some_iff] using hds
    have hright := hread.mpr fun hdialect hneg => hwraps ⟨hdialect, hneg⟩
    exact ⟨text, d, htext, hcomma, hright.trans hd, reference?_denotation hd⟩

/-- The texts of operands are read, with the symbols and displacements that the operands show. -/
theorem exists_readAll {ops : List Operand} (dialect : Dialect) (arch : Arch) (suffix : String)
    (j : Nat) (hwell : ∀ op ∈ ops, op.WellFormed locals)
    (hnames : ∀ op ∈ ops, ∀ name ∈ op.shownNames, Dialect.IsIdentifier name) :
    ∃ texts ds, Inst.operandTexts dialect arch suffix j ops = .ok texts ∧
      texts.length = ops.length ∧ (∀ text ∈ texts, ',' ∉ text.toList) ∧
      dialect.readAll (ops.map outline) (texts.map String.toList) = some ds ∧
      ds.filterMap Denotation.reference? = (ops.filterMap shown?).map plainReference := by
  induction ops generalizing j with
  | nil => exact ⟨[], [], rfl, rfl, nofun, rfl, rfl⟩
  | cons op rest ih =>
    rw [List.forall_mem_cons] at hwell hnames
    obtain ⟨text, d, htext, hcomma, hread, hshown⟩ :=
      exists_readOperand dialect arch suffix hwell.1 hnames.1
    obtain ⟨texts, ds, htexts, hlength, hcommas, hreads, hlater⟩ := ih (j + 1) hwell.2 hnames.2
    refine ⟨text :: texts, d :: ds, by simp only [Inst.operandTexts, htext, htexts],
      by simp [hlength], List.forall_mem_cons.mpr ⟨hcomma, hcommas⟩,
      Dialect.readAll_cons_iff.mpr ⟨hread, hreads⟩, ?_⟩
    rw [List.filterMap_cons, List.filterMap_cons, hshown, hlater]
    cases op.shown? <;> rfl

end Operand

/-- The line of an instruction is read, with the symbols and displacements that its operands show. -/
theorem Inst.exists_readLine {inst : Inst} {locals : List String} (p : Profile)
    (hwell : ∀ op ∈ inst.operands, op.WellFormed locals)
    (hnames : ∀ op ∈ inst.operands, ∀ name ∈ op.shownNames, Dialect.IsIdentifier name)
    {operation : String} {texts : List String}
    (hparts : inst.parts p.dialect p.arch = .ok (operation, texts)) :
    ∃ ds, p.dialect.readLine (inst.operands.map Operand.outline) operation
        ((Line.instruction operation texts).render p) = some ds ∧
      ds.filterMap Denotation.reference? =
        (inst.operands.filterMap Operand.shown?).map plainReference := by
  obtain ⟨texts', ds, htexts, hlength, hcommas, hreads, hshown⟩ :=
    Operand.exists_readAll p.dialect p.arch inst.suffix 0 hwell hnames
  obtain ⟨operation', hparts'⟩ := parts_of_operandTexts htexts
  obtain ⟨rfl, rfl⟩ := Prod.mk.inj (Except.ok.inj (hparts.symm.trans hparts'))
  have houtlines : (inst.operands.map Operand.outline).length = (p.dialect.order texts').length := by
    rw [List.length_map, p.dialect.length_order, hlength]
  refine ⟨ds, ?_, hshown⟩
  -- reading undoes the order of writing
  rw [Dialect.readLine_render p operation houtlines
    fun text htext => hcommas text (Dialect.mem_order.mp htext), ← Dialect.order_map,
    Dialect.order_order, hreads]

section Finished

variable {p : Profile} {o : Options} {u : CodeUnit}

/-- In a unit that passes the checks, symbol and label operands carry a symbol. -/
theorem sym_ne_empty_of_verify (h : verify (some u) = .ok ()) {inst : Inst}
    (hinst : inst ∈ u.funcs.flatMap Func.insts) {op : Operand} (hop : op ∈ inst.operands)
    (hkind : op.kind = .sym ∨ op.kind = .label) : op.sym ≠ "" := by
  obtain ⟨f, hf, hinst⟩ := List.mem_flatMap.mp hinst
  obtain ⟨i, hi⟩ := List.mem_iff_getElem?.mp hinst
  obtain ⟨j, hj⟩ := List.mem_iff_getElem?.mp hop
  exact Operand.sym_ne_empty
    (Func.operand_faults_of_faultless (func_faults_of_verify h hf) hi hj) hkind

/-- In a unit that passes the checks, the operands of an instruction are well-formed in its
function. -/
theorem exists_wellFormed_of_verify (h : verify (some u) = .ok ()) {inst : Inst}
    (hinst : inst ∈ u.funcs.flatMap Func.insts) :
    ∃ locals, ∀ op ∈ inst.operands, op.WellFormed locals := by
  obtain ⟨f, hf, hinst⟩ := List.mem_flatMap.mp hinst
  obtain ⟨i, hi⟩ := List.mem_iff_getElem?.mp hinst
  refine ⟨f.locals, fun op hop => ?_⟩
  obtain ⟨j, hj⟩ := List.mem_iff_getElem?.mp hop
  exact (Operand.faults_eq_nil_iff f.locals i op j).mp
    (Func.operand_faults_of_faultless (func_faults_of_verify h hf) hi hj)

/-- After a finished run of the standard stages with checks, the n-th instruction line of the listing
prints the operands of the n-th instruction of the object's unit. The symbols and displacements that
it shows are those that the object's relocations of the instruction are for exactly when the fixup
of the instruction is shown. The same holds of what the n-th instruction of the assembly text says, read
as an assembler reads it, if the unit is legible and the operands show identifiers. -/
theorem writers_agree_iff (hverify : o.verify = true)
    (hrun : (runStages p o Stage.standard u).ending = .finished) {lines : List Line} {obj : Object}
    (hlines : Listing.ofUnit p (runStages p o Stage.standard u).unit = .ok lines)
    (hobj : Object.assemble p (runStages p o Stage.standard u).unit = .ok obj) {n place : Nat}
    {inst : Inst}
    (hinst : (runStages p o Stage.standard u).unit.placedInsts[n]? = some (place, inst)) :
    ∃ operation written text bytes,
      inst.written? p.dialect p.arch = some written ∧
      (lines.filterMap Line.instruction?)[n]? =
        some (operation, written.map WrittenOperand.render) ∧
      obj.section? p.textSection = some text ∧ decodeEncoding inst.encoding = .ok bytes ∧
      (written.filterMap WrittenOperand.reference? =
          (text.relocsIn place (place + bytes.length)).map
            (Reloc.reference place bytes.length) ↔ inst.FixupShown) ∧
      ∀ b c, Profile.ofBucket b c = .ok p →
        (runStages p o Stage.standard u).unit.IsLegible p.dialect →
        (∀ op ∈ inst.operands, ∀ name ∈ op.shownNames, Dialect.IsIdentifier name) →
        ∃ line ds,
          ((Statement.ofText (Listing.render p lines)).filterMap Statement.instruction?)[n]? =
            some line ∧
          p.dialect.readLine (inst.operands.map Operand.outline) (inst.operation p.dialect) line =
            some ds ∧
          (ds.filterMap Denotation.reference? =
            ((text.relocsIn place (place + bytes.length)).map
              (Reloc.reference place bytes.length)).map plainReference ↔ inst.FixupShown) := by
  have hdirective := hasDirective_of_finished hrun hlines
  obtain ⟨hunit, -, hresult⟩ := runStages_standard_finished hverify hrun
  rw [← hunit] at hresult
  generalize (runStages p o Stage.standard u).unit = m at *
  -- places and lines number the instructions alike
  have hnth : (m.funcs.flatMap Func.insts)[n]? = some inst := by
    rw [← m.map_snd_placedInsts, List.getElem?_map, hinst]
    rfl
  have hmem := List.mem_of_getElem? hnth
  obtain ⟨⟨operation, texts⟩, hparts⟩ := Listing.exists_parts_of_ofUnit hlines hmem
  obtain ⟨written, hwritten, rfl, hshown⟩ := Inst.exists_written_of_parts hparts
  obtain ⟨text, bytes, i, hsection, hbytes, hbound, -, hrelocs⟩ :=
    Object.section?_of_placed hobj (List.mem_of_getElem? hinst)
  have hline : (lines.filterMap Line.instruction?)[n]? =
      some (operation, written.map WrittenOperand.render) := by
    rw [Listing.getElem?_instructions hlines, hnth, Option.bind_some, hparts]
    rfl
  -- what the operands show, in order, decides both readings
  have hfixup : inst.operands.filterMap Operand.shown? =
      (text.relocsIn place (place + bytes.length)).map (Reloc.reference place bytes.length) ↔
        inst.FixupShown := by
    rw [references_of_instRelocs hbound hrelocs]
    exact Inst.shown_eq_fixup_iff fun op hop hkind => sym_ne_empty_of_verify hresult hmem hop hkind
  refine ⟨operation, written, text, bytes, hwritten, hline, hsection, hbytes, ?_, ?_⟩
  · rw [← hfixup, references_of_instRelocs hbound hrelocs, eq_toList_iff_of_perm hshown]
  · intro b c hp hlegible hnames
    obtain ⟨locals, hwell⟩ := exists_wellFormed_of_verify hresult hmem
    obtain ⟨ds, hread, hreads⟩ := Inst.exists_readLine p hwell hnames hparts
    refine ⟨(Line.instruction operation (written.map WrittenOperand.render)).render p, ds, ?_, ?_, ?_⟩
    · rw [Statement.filterMap_instruction?_ofText (Profile.isUsual_of_ofBucket hp)
        (Listing.isLegible_of_ofUnit hlegible hlines) hdirective, List.getElem?_map, hline]
      rfl
    · rw [← Listing.operation_of_parts hparts]
      exact hread
    · rw [hreads, ← hfixup]
      exact (List.map_injective_iff.mpr plainReference_injective).eq_iff

end Finished

/-- A call with the given operand. -/
def callInst (op : Operand) : Inst :=
  { op := "call", operands := [op], encoding := "e8 00 00 00 00" }

/-- A unit with a function that makes a call. -/
def calling (op : Operand) : CodeUnit :=
  { name := "calling"
    funcs := [{ name := "main", linkage := .global
                insts := [callInst op, { op := "ret", encoding := "c3" }] }] }

/-- The run of the standard stages for the host over a unit with a call. -/
def callRun (op : Operand) : StageRun :=
  runStages Profile.host { verify := true } Stage.standard (calling op)

/-- On a call without a displacement the listing and the object agree, and so does the text. -/
theorem plain_call_agrees :
    (callRun { kind := .sym, sym := "helper" }).ending = .finished ∧
      (callRun { kind := .sym, sym := "helper" }).unit.IsLegible Profile.host.dialect ∧
      ∃ lines obj operation written text line ds,
        Listing.ofUnit Profile.host (callRun { kind := .sym, sym := "helper" }).unit = .ok lines ∧
        Object.assemble Profile.host (callRun { kind := .sym, sym := "helper" }).unit = .ok obj ∧
        (lines.filterMap Line.instruction?)[0]? =
          some (operation, List.map WrittenOperand.render written) ∧
        obj.section? ".text" = some text ∧
        List.filterMap WrittenOperand.reference? written =
          (text.relocsIn 0 5).map (Reloc.reference 0 5) ∧
        ((Statement.ofText (Listing.render Profile.host lines)).filterMap
          Statement.instruction?)[0]? = some line ∧
        Profile.host.dialect.readLine [⟨.sym, true, false⟩] "call" line = some ds ∧
        ds.filterMap Denotation.reference? =
          ((text.relocsIn 0 5).map (Reloc.reference 0 5)).map plainReference := by
  have hrun : (callRun { kind := .sym, sym := "helper" }).ending = .finished := by decide +kernel
  have hlegible : (callRun { kind := .sym, sym := "helper" }).unit.IsLegible
      Profile.host.dialect := by decide +kernel
  have hlisted : (Listing.ofUnit Profile.host
      (callRun { kind := .sym, sym := "helper" }).unit).toOption.isSome := by decide +kernel
  have hassembled : (Object.assemble Profile.host
      (callRun { kind := .sym, sym := "helper" }).unit).toOption.isSome := by decide +kernel
  have hinst : (callRun { kind := .sym, sym := "helper" }).unit.placedInsts[0]? =
      some (0, callInst { kind := .sym, sym := "helper" }) := by decide +kernel
  have hfixup : (callInst { kind := .sym, sym := "helper" }).FixupShown :=
    .inr ⟨{ kind := .sym, sym := "helper" }, { kind := .sym, sym := "helper" }, by decide +kernel,
      by decide +kernel, rfl, rfl⟩
  have hbytes : decodeEncoding "e8 00 00 00 00" = .ok [0xe8, 0, 0, 0, 0] := rfl
  cases hlines : Listing.ofUnit Profile.host (callRun { kind := .sym, sym := "helper" }).unit with
  | error e =>
    rw [hlines] at hlisted
    cases hlisted
  | ok lines =>
    cases hobj : Object.assemble Profile.host (callRun { kind := .sym, sym := "helper" }).unit with
    | error e =>
      rw [hobj] at hassembled
      cases hassembled
    | ok obj =>
      obtain ⟨operation, written, text, bytes, -, hprinted, hsection, hbytes', hagree, htext⟩ :=
        writers_agree_iff rfl hrun hlines hobj hinst
      obtain rfl : _ = bytes := Except.ok.inj (hbytes.symm.trans hbytes')
      obtain ⟨line, ds, hline, hread, hreads⟩ :=
        htext _ _ Profile.ofTriple_host hlegible (by decide)
      exact ⟨hrun, hlegible, lines, obj, operation, written, text, line, ds, rfl, rfl, hprinted,
        hsection, hagree.mpr hfixup, hline, hread, hreads.mpr hfixup⟩

/-- A unit in source form that goes through the standard stages with checks and has a listing and an
object. Its call is printed without the displacement that its relocation has, and no one can read the
displacement from the text. -/
theorem displaced_call_disagrees :
    (calling { kind := .sym, sym := "helper", disp := 16 }).IsSource ∧
      (callRun { kind := .sym, sym := "helper", disp := 16 }).ending = .finished ∧
      (callRun { kind := .sym, sym := "helper", disp := 16 }).unit.placedInsts[0]? =
        some (0, callInst { kind := .sym, sym := "helper", disp := 16 }) ∧
      ((callInst { kind := .sym, sym := "helper", disp := 16 }).written? .att .x86_64).map
          (fun written => written.filterMap WrittenOperand.reference?) = some [("helper", 0)] ∧
      ((Listing.ofUnit Profile.host
          (callRun { kind := .sym, sym := "helper", disp := 16 }).unit).toOption.map
            fun lines => lines.filterMap Line.instruction?) =
        some [("call", ["helper"]), ("ret", [])] ∧
      ((assemblyText Profile.host
          (callRun { kind := .sym, sym := "helper", disp := 16 }).unit).toOption.map
            fun text => (Statement.ofText text).filterMap Statement.instruction?) =
        some ["\tcall\thelper", "\tret"] ∧
      Dialect.readLine .att [⟨.sym, true, false⟩] "call" "\tcall\thelper" =
        some [.symbol "helper"] ∧
      (((Object.assemble Profile.host
          (callRun { kind := .sym, sym := "helper", disp := 16 }).unit).toOption.bind
            fun obj => obj.section? ".text").map
              fun text => (text.relocsIn 0 5).map (Reloc.reference 0 5)) =
        some [("helper", 16)] := by
  decide +kernel

end CodeEmission
