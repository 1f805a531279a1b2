import CodeEmission.Proofs.Assembly.Marks
import Mathlib.Data.List.Basic

/-!
# Symbols in Printed Operands

A printed operand as its parts: what stands before a symbol, the symbol with its displacement, and
what stands after it. The parts around a symbol are made of the notation's marks and registers, so
the symbols that a listing shows are those of its parts.

* `Operand.text_eq_written`: an operand's text is that of its parts.
* `Operand.reference?_of_written`: the part that is a symbol is `Operand.shown?`, which goes by the
  kind of the operand alone.
* `Inst.exists_written_of_parts`: the printed operands of an instruction and the symbols they show.
* `Listing.getElem?_instructions`: the instruction lines of a listing are those of its instructions,
  in order.
-/

namespace CodeEmission

/-- A printed operand in parts. -/
structure WrittenOperand where
  /-- What stands before the symbol, or all of an operand without one. -/
  before : String := ""
  /-- The symbol and its displacement. -/
  reference? : Option (String × Int64) := none
  /-- What stands after the symbol. -/
  after : String := ""
  deriving DecidableEq, Repr

/-- The text of a printed operand. -/
def WrittenOperand.render (w : WrittenOperand) : String :=
  match w.reference? with
  | some (sym, off) => w.before ++ symPlus sym off ++ w.after
  | none => w.before ++ w.after

namespace Operand

/-- What a memory operand has before its symbol. -/
def opening (arch : Arch) (suffix : String) (op : Operand) : Dialect → String
  | .att => ""
  | .intel =>
    intelWidth suffix ++ "[" ++
      (if op.base ≠ "" then op.base ++ " + " else if arch = .x86_64 then "rip + " else "")

/-- What a memory operand has after its symbol. -/
def closing (arch : Arch) (op : Operand) : Dialect → String
  | .att =>
    if op.base ≠ "" then "(%" ++ op.base ++ ")" else if arch = .x86_64 then "(%rip)" else ""
  | .intel => "]"

/-- A memory operand without a symbol. -/
def plainAddress (suffix : String) (op : Operand) : Dialect → String
  | .att => (if op.disp = 0 then "" else Text.ofInt64 op.disp) ++ "(%" ++ op.base ++ ")"
  | .intel =>
    intelWidth suffix ++ "[" ++
      (if 0 < op.disp then op.base ++ " + " ++ Text.ofInt64 op.disp
      else if op.disp < 0 then op.base ++ " - " ++ Text.ofInt64 (-op.disp)
      else op.base) ++ "]"

/-- An operand in parts, if it is of a kind that can be printed. -/
def written? (dialect : Dialect) (arch : Arch) (suffix : String) (op : Operand) :
    Option WrittenOperand :=
  match op.kind with
  | .reg => some { before := (if dialect = .att then "%" else "") ++ op.reg }
  | .imm => some { before := (if dialect = .att then "$" else "") ++ Text.ofInt64 op.imm }
  | .sym | .label => some { reference? := some (op.sym, 0) }
  | .mem =>
    some (if op.sym = "" then { before := op.plainAddress suffix dialect }
      else
        { before := op.opening arch suffix dialect, reference? := some (op.sym, op.disp)
          after := op.closing arch dialect })
  | .other _ => none

/-- The symbol and displacement that a printed operand shows. -/
def shown? (op : Operand) : Option (String × Int64) :=
  match op.kind with
  | .sym | .label => some (op.sym, 0)
  | .mem => if op.sym = "" then none else some (op.sym, op.disp)
  | _ => none

/-- A symbol with no displacement is printed alone. -/
@[simp]
theorem symPlus_zero (sym : String) : symPlus sym 0 = sym := rfl

/-- The text of a memory operand is that of its parts. -/
theorem memory_text (dialect : Dialect) (arch : Arch) (suffix : String) (op : Operand)
    (h : op.kind = .mem) :
    op.text dialect arch suffix =
      .ok (if op.sym = "" then op.plainAddress suffix dialect
        else op.opening arch suffix dialect ++ symPlus op.sym op.disp ++
          op.closing arch dialect) := by
  cases dialect with
  | att =>
    by_cases hsym : op.sym = ""
    · by_cases hdisp : op.disp = 0
      · simp [text, attText, h, attAddress, plainAddress, hsym, hdisp]
      · simp [text, attText, h, attAddress, plainAddress, hsym, hdisp, String.append_assoc]
    · by_cases hbase : op.base = ""
      · by_cases harch : arch = .x86_64
        · simp [text, attText, h, attAddress, opening, closing, hsym, hbase, harch]
        · simp [text, attText, h, attAddress, opening, closing, hsym, hbase, harch]
      · simp [text, attText, h, attAddress, opening, closing, hsym, hbase, String.append_assoc]
  | intel =>
    by_cases hsym : op.sym = ""
    · simp [text, intelText, h, intelAddress, plainAddress, hsym]
    · by_cases hbase : op.base = ""
      · by_cases harch : arch = .x86_64
        · -- the parts have the bracket and the base register as one text
          have hopen : ∀ s : String, "[" ++ ("rip + " ++ s) = "[rip + " ++ s :=
            fun _ => String.append_assoc.symm
          simp [text, intelText, h, intelAddress, opening, closing, hsym, hbase, harch,
            String.append_assoc, hopen]
        · simp [text, intelText, h, intelAddress, opening, closing, hsym, hbase, harch]
      · simp [text, intelText, h, intelAddress, opening, closing, hsym, hbase,
          String.append_assoc]

/-- The text of an operand is that of its parts. -/
theorem text_eq_written (dialect : Dialect) (arch : Arch) (suffix : String) (op : Operand) :
    op.text dialect arch suffix =
      match op.written? dialect arch suffix with
      | some w => .ok w.render
      | none => .error ⟨op.kind.text⟩ := by
  cases hkind : op.kind with
  | reg => cases dialect <;> simp [text, attText, intelText, written?, hkind, WrittenOperand.render]
  | imm => cases dialect <;> simp [text, attText, intelText, written?, hkind, WrittenOperand.render]
  | sym => cases dialect <;> simp [text, attText, intelText, written?, hkind, WrittenOperand.render]
  | label =>
    cases dialect <;> simp [text, attText, intelText, written?, hkind, WrittenOperand.render]
  | mem =>
    rw [memory_text dialect arch suffix op hkind]
    by_cases hsym : op.sym = ""
    · simp [written?, hkind, WrittenOperand.render, hsym]
    · simp [written?, hkind, WrittenOperand.render, hsym]
  | other text' =>
    cases dialect <;> simp [text, attText, intelText, written?, hkind, OperandKind.text]

/-- The part of a printed operand that is a symbol goes by the operand's kind. -/
theorem reference?_of_written {dialect : Dialect} {arch : Arch} {suffix : String} {op : Operand}
    {w : WrittenOperand} (h : op.written? dialect arch suffix = some w) :
    w.reference? = op.shown? := by
  unfold written? at h
  unfold shown?
  cases hkind : op.kind with
  | mem =>
    rw [hkind, Option.some.injEq] at h
    rw [← h]
    split <;> rfl
  | other text =>
    rw [hkind] at h
    cases h
  | reg | imm | sym | label =>
    rw [hkind, Option.some.injEq] at h
    rw [← h]

end Operand

namespace Inst

variable {dialect : Dialect} {arch : Arch}

/-- The operands of an instruction in parts, in the order of printing. -/
def written? (dialect : Dialect) (arch : Arch) (inst : Inst) : Option (List WrittenOperand) :=
  (inst.operands.mapM (Operand.written? dialect arch inst.suffix)).map fun ws =>
    match dialect with
    | .att => ws.reverse
    | .intel => ws

/-- Texts of operands are the texts of their parts, and show what the operands show. -/
theorem exists_written_of_operandTexts {suffix : String} {j : Nat} {ops : List Operand}
    {texts : List String} (h : operandTexts dialect arch suffix j ops = .ok texts) :
    ∃ ws, ops.mapM (Operand.written? dialect arch suffix) = some ws ∧
      ws.map WrittenOperand.render = texts ∧
      ws.filterMap WrittenOperand.reference? = ops.filterMap Operand.shown? := by
  induction ops generalizing j texts with
  | nil =>
    cases h
    exact ⟨[], rfl, rfl, rfl⟩
  | cons op rest ih =>
    rw [operandTexts, Operand.text_eq_written] at h
    cases hop : op.written? dialect arch suffix with
    | none =>
      rw [hop] at h
      cases h
    | some w =>
      rw [hop] at h
      dsimp only at h
      split at h
      · cases h
      next later hlater =>
        -- the number `j` only serves messages, so the hypothesis holds for the next one
        obtain ⟨ws, hws, hrender, hshown⟩ := ih hlater
        refine ⟨w :: ws, ?_, ?_, ?_⟩
        · rw [List.mapM_cons, hop, hws]
          rfl
        · rw [← Except.ok.inj h, List.map_cons, hrender]
        · rw [List.filterMap_cons, List.filterMap_cons, Operand.reference?_of_written hop, hshown]

/-- The printed operands of an instruction are its operands in parts; up to the order of the
notation they show what the operands show. -/
theorem exists_written_of_parts {inst : Inst} {operation : String} {texts : List String}
    (h : inst.parts dialect arch = .ok (operation, texts)) :
    ∃ ws, inst.written? dialect arch = some ws ∧ ws.map WrittenOperand.render = texts ∧
      (ws.filterMap WrittenOperand.reference?).Perm (inst.operands.filterMap Operand.shown?) := by
  unfold parts at h
  split at h
  · cases h
  next texts' htexts =>
    obtain ⟨ws, hws, hrender, hshown⟩ := exists_written_of_operandTexts htexts
    cases dialect with
    | att =>
      -- this notation puts the operands in reverse
      refine ⟨ws.reverse, ?_, ?_, ?_⟩
      · rw [written?, hws]
        rfl
      · rw [List.map_reverse, hrender, ← (Prod.mk.inj (Except.ok.inj h)).2]
      · rw [List.filterMap_reverse, hshown]
        exact List.reverse_perm _
    | intel =>
      refine ⟨ws, ?_, ?_, ?_⟩
      · rw [written?, hws]
        rfl
      · rw [hrender, ← (Prod.mk.inj (Except.ok.inj h)).2]
      · rw [hshown]

end Inst

/-- The operation and the operands of an instruction line. -/
def Line.instruction? : Line → Option (String × List String)
  | instruction operation operands => some (operation, operands)
  | _ => none

/-- An instruction line is kept. -/
theorem Line.isMark_of_instruction? {line : Line} {parts : String × List String}
    (h : line.instruction? = some parts) : line.isMark = true := by
  unfold Line.instruction? at h
  split at h
  · rfl
  · cases h

/-- Where every member gives something, what the members give stands in their order. -/
theorem getElem?_filterMap_of_isSome {α β : Type} {f : α → Option β} {as : List α}
    (h : ∀ a ∈ as, (f a).isSome) (n : Nat) : (as.filterMap f)[n]? = as[n]?.bind f := by
  induction as generalizing n with
  | nil => rfl
  | cons a rest ih =>
    obtain ⟨hhead, hrest⟩ := List.forall_mem_cons.mp h
    obtain ⟨b, hb⟩ := Option.isSome_iff_exists.mp hhead
    rw [List.filterMap_cons_some hb]
    cases n with
    | zero => exact hb.symm
    | succ n => exact ih hrest n

/-- The instruction line of an instruction, if it can be written. -/
theorem Inst.filterMap_instruction?_marks (p : Profile) (inst : Inst) :
    (inst.marks p).filterMap Line.instruction? =
      (inst.parts p.dialect p.arch).toOption.toList := by
  have hlabels : (inst.labels.map Line.label).filterMap Line.instruction? = [] := by
    simp [Line.instruction?]
  rw [marks, List.filterMap_append, hlabels, List.nil_append]
  split
  next hparts => rw [hparts]; rfl
  next hparts => rw [hparts]; rfl

/-- The instruction lines of a function, for those of its instructions that can be written. -/
theorem Func.filterMap_instruction?_marks (p : Profile) (f : Func) :
    (f.marks p).filterMap Line.instruction? =
      f.insts.filterMap fun inst => (inst.parts p.dialect p.arch).toOption := by
  have htables : (f.jumpTables.map fun t => Line.label t.label).filterMap
      Line.instruction? = [] := by
    simp [Line.instruction?]
  rw [Func.marks, List.filterMap_cons_none rfl, List.filterMap_append, htables,
    List.append_nil, List.filterMap_flatMap, List.filterMap_eq_flatMap_toList]
  simp only [Inst.filterMap_instruction?_marks]

namespace Listing

variable {p : Profile} {u : CodeUnit} {lines : List Line}

/-- The instruction lines of a listing are those of its instructions, in order. -/
theorem getElem?_instructions (h : ofUnit p u = .ok lines) (n : Nat) :
    (lines.filterMap Line.instruction?)[n]? =
      (u.funcs.flatMap Func.insts)[n]?.bind fun inst =>
        (inst.parts p.dialect p.arch).toOption := by
  have hlines : lines.filterMap Line.instruction? =
      (u.funcs.flatMap Func.insts).filterMap fun inst =>
        (inst.parts p.dialect p.arch).toOption := by
    have hdata : (u.data.map fun d => Line.label d.emittedName).filterMap Line.instruction? =
        [] := by
      simp [Line.instruction?]
    rw [filterMap_of_isMark h fun _ _ => Line.isMark_of_instruction?, hdata, List.append_nil,
      List.filterMap_flatMap]
    simp only [Func.filterMap_instruction?_marks]
  rw [hlines]
  -- a listing exists, so no instruction is left out and the numbers stay
  refine getElem?_filterMap_of_isSome ?_ n
  intro inst hinst
  obtain ⟨parts, hparts⟩ := exists_parts_of_ofUnit h hinst
  rw [hparts]
  rfl

end Listing

end CodeEmission
