import CodeEmission.Proofs.Assembly.Notations
import CodeEmission.Proofs.Text.LineFeeds
import Mathlib.Algebra.Order.Group.Nat

/-!
# Texts in Lines

A line shows some texts of the unit as they are, and the rest of it is set by its kind and by the
profile. The texts decide whether the line is one line of the output.

* `Line.lineFeeds_render`: the line feeds of a line are those of its texts.
* `Listing.lineFeeds_render`: the output has one line for each line of the listing, and one more for
  each line feed in a text.
* `Operand.lineFeeds_text`, `Inst.lineFeeds_parts_eq_zero_iff`: an operand brings the line feeds of the
  names in it, and an instruction those of its operation and its operands.
-/

namespace CodeEmission

open Text (lineFeeds)

/-! ## Lines -/

namespace Line

/-- The texts that a line shows as they are. -/
def texts : Line → List String
  | banner unit => [unit]
  | exported sym | weakDefinition sym | weakReference sym | functionType sym | objectType sym
  | label sym | cfiPersonality sym | sehStart sym | sehHandler sym => [sym]
  | instruction operation operands => operation :: operands
  | tableEntry target table => [target, table]
  | datum directive value => [directive, value.sym]
  | _ => []

/-- The line feeds of a symbol with an offset are those of the symbol. -/
theorem lineFeeds_symPlus (sym : String) (off : Int64) :
    lineFeeds (symPlus sym off) = lineFeeds sym := by
  unfold symPlus
  split
  · simp (disch := decide) [Text.lineFeeds_of_not_mem]
  split
  · simp
  · rfl

theorem lineFeeds_datumText (v : Datum) : lineFeeds v.text = lineFeeds v.sym := by
  unfold Datum.text
  split
  next hnone => simp [hnone]
  next => exact lineFeeds_symPlus v.sym v.int

/-- The line feeds of a line are those of its texts. -/
theorem lineFeeds_render {p : Profile} (hp : p.IsUsual) (line : Line) :
    lineFeeds (line.render p) = (line.texts.map lineFeeds).sum := by
  delta render
  cases line with
  | align amount fill =>
    have hdigits : lineFeeds (String.ofList (Nat.toDigits 16 p.textFill.toNat)) = 0 := by
      rw [hp.textFill]
      rfl
    cases fill with
    | true => simp (disch := decide) [texts, hp.lineFeeds_alignDirective, hdigits,
        Text.lineFeeds_of_not_mem]
    | false => simp [texts, hp.lineFeeds_alignDirective]
  | instruction operation operands =>
    have hcomma : lineFeeds ", " = 0 := rfl
    cases operands with
    | nil => simp (disch := decide) [texts, Text.lineFeeds_of_not_mem]
    | cons operand rest =>
      simp (disch := decide) [texts, Text.lineFeeds_intercalate hcomma, Text.lineFeeds_of_not_mem]
  | textSection => simpa [texts] using hp.lineFeeds_enterText
  | dataSection => simpa [texts] using hp.lineFeeds_enterData
  | exported sym => simp [texts, hp.lineFeeds_globalDirective]
  | weakDefinition sym => simp [texts, hp.lineFeeds_weakDefDirective]
  | weakReference sym => simp [texts, hp.lineFeeds_weakRefDirective]
  | datum directive value => simp [texts, lineFeeds_datumText]
  | _ =>
    simp (disch := decide) [texts, hp.lineFeeds_comment, p.bucket.lineFeeds_render,
      hp.lineFeeds_nonexecStack, hp.lineFeeds_data32Directive, Text.lineFeeds_of_not_mem]

end Line

namespace Listing

variable {p : Profile} {lines : List Line}

/-- The output has one line for each line of the listing, and one more for each line feed in a text
that a line shows. -/
theorem lineFeeds_render (hp : p.IsUsual) (lines : List Line) :
    lineFeeds (render p lines) =
      lines.length + ((lines.flatMap Line.texts).map lineFeeds).sum := by
  induction lines with
  | nil => rfl
  | cons line rest ih =>
    have hend : lineFeeds "\n" = 1 := rfl
    have hsplit : render p (line :: rest) = line.render p ++ "\n" ++ render p rest := by
      simp [render, String.join_cons]
    rw [hsplit, Text.lineFeeds_append, Text.lineFeeds_append, hend, ih, Line.lineFeeds_render hp]
    simp only [List.length_cons, List.flatMap_cons, List.map_append, List.sum_append]
    omega

/-- Each line of the listing is one line of the output exactly when no text in it has a line feed. -/
theorem lineFeeds_render_eq_length_iff (hp : p.IsUsual) :
    lineFeeds (render p lines) = lines.length ↔
      ∀ line ∈ lines, ∀ text ∈ line.texts, lineFeeds text = 0 := by
  rw [lineFeeds_render hp, Nat.add_eq_left, List.sum_eq_zero_iff]
  simp only [List.forall_mem_map, List.forall_mem_flatMap]

end Listing

/-! ## Operands and instructions -/

namespace Operand

theorem lineFeeds_intelWidth (suffix : String) : lineFeeds (intelWidth suffix) = 0 := by
  unfold intelWidth
  split <;> rfl

/-- The line feeds of an address are those of its base register and its symbol. -/
theorem lineFeeds_attAddress (arch : Arch) (op : Operand) :
    lineFeeds (op.attAddress arch) = lineFeeds op.base + lineFeeds op.sym := by
  unfold attAddress
  by_cases hsym : op.sym = ""
  · by_cases hdisp : op.disp = 0
    · simp (disch := decide) [hsym, hdisp, Text.lineFeeds_of_not_mem]
    · simp (disch := decide) [hsym, hdisp, Text.lineFeeds_of_not_mem]
  · by_cases hbase : op.base = ""
    · by_cases harch : arch = .x86_64
      · simp (disch := decide) [hsym, hbase, harch, Line.lineFeeds_symPlus, Text.lineFeeds_of_not_mem]
      · simp [hsym, hbase, harch, Line.lineFeeds_symPlus]
    · simp (disch := decide) [hsym, hbase, Line.lineFeeds_symPlus, Text.lineFeeds_of_not_mem,
        Nat.add_comm]

theorem lineFeeds_intelAddress (arch : Arch) (op : Operand) :
    lineFeeds (op.intelAddress arch) = lineFeeds op.base + lineFeeds op.sym := by
  unfold intelAddress
  by_cases hsym : op.sym = ""
  · by_cases hpos : 0 < op.disp
    · simp (disch := decide) [hsym, hpos, Text.lineFeeds_of_not_mem]
    · by_cases hneg : op.disp < 0
      · simp (disch := decide) [hsym, hpos, hneg, Text.lineFeeds_of_not_mem]
      · simp [hsym, hpos, hneg]
  · by_cases hbase : op.base = ""
    · by_cases harch : arch = .x86_64
      · simp (disch := decide) [hsym, hbase, harch, Line.lineFeeds_symPlus, Text.lineFeeds_of_not_mem]
      · simp [hsym, hbase, harch, Line.lineFeeds_symPlus]
    · simp (disch := decide) [hsym, hbase, Line.lineFeeds_symPlus, Text.lineFeeds_of_not_mem]

/-- The line feeds of an operand are those of the names it shows. -/
theorem lineFeeds_text {dialect : Dialect} {arch : Arch} {suffix text : String} {op : Operand}
    (h : op.text dialect arch suffix = .ok text) :
    lineFeeds text = (op.shownNames.map lineFeeds).sum := by
  unfold shownNames
  cases hkind : op.kind with
  | other word => cases dialect <;> simp [Operand.text, attText, intelText, hkind] at h
  | mem =>
    cases dialect <;> simp only [Operand.text, attText, intelText, hkind, Except.ok.injEq] at h <;>
      subst h
    · simp [lineFeeds_attAddress]
    · simp (disch := decide) [lineFeeds_intelAddress, lineFeeds_intelWidth, Text.lineFeeds_of_not_mem]
  | reg | imm | sym | label =>
    cases dialect <;> simp only [Operand.text, attText, intelText, hkind, Except.ok.injEq] at h <;>
      subst h <;> simp (disch := decide) [Text.lineFeeds_of_not_mem]

end Operand

namespace Inst

variable {dialect : Dialect} {arch : Arch}

theorem map_lineFeeds_operandTexts {suffix : String} {j : Nat} {ops : List Operand}
    {texts : List String} (h : operandTexts dialect arch suffix j ops = .ok texts) :
    texts.map lineFeeds = ops.map fun op => (op.shownNames.map lineFeeds).sum := by
  induction ops generalizing j texts with
  | nil =>
    cases h
    rfl
  | cons op rest ih =>
    rw [operandTexts] at h
    split at h
    · cases h
    next text htext =>
      split at h
      · cases h
      next later hlater =>
        rw [← Except.ok.inj h, List.map_cons, List.map_cons, Operand.lineFeeds_text htext, ih hlater]

/-- The texts of an instruction line have no line feed exactly when the operation, the width letter
where it is shown and the names of the operands have none. -/
theorem lineFeeds_parts_eq_zero_iff {inst : Inst} {operation : String} {operands : List String}
    (h : inst.parts dialect arch = .ok (operation, operands)) :
    (∀ text ∈ operation :: operands, lineFeeds text = 0) ↔
      lineFeeds inst.op = 0 ∧ (dialect = .att → lineFeeds inst.suffix = 0) ∧
        ∀ op ∈ inst.operands, ∀ name ∈ op.shownNames, lineFeeds name = 0 := by
  unfold parts at h
  split at h
  · cases h
  next texts htexts =>
    have hoperands : (∀ text ∈ texts, lineFeeds text = 0) ↔
        ∀ op ∈ inst.operands, ∀ name ∈ op.shownNames, lineFeeds name = 0 := by
      have hsame := map_lineFeeds_operandTexts htexts
      have hall : (∀ n ∈ texts.map lineFeeds, n = 0) ↔
          ∀ n ∈ inst.operands.map fun op => (op.shownNames.map lineFeeds).sum, n = 0 := by
        rw [hsame]
      simpa [List.sum_eq_zero_iff] using hall
    rw [List.forall_mem_cons]
    cases dialect with
    | att =>
      obtain ⟨rfl, rfl⟩ := Prod.mk.inj (Except.ok.inj h)
      simp [hoperands, and_assoc]
    | intel =>
      obtain ⟨rfl, rfl⟩ := Prod.mk.inj (Except.ok.inj h)
      simp [hoperands]

end Inst

end CodeEmission
