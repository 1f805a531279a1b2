import CodeEmission.Proofs.Assembly.Names
import CodeEmission.Proofs.Assembly.References
import CodeEmission.Proofs.CodeUnit.WellFormed
import CodeEmission.Proofs.Platform.Host

/-!
# Reading the Two Notations

An operand is written in two notations, and either text can be read back by someone who knows the
kind of the operand and whether it has a symbol and a base register. `Operand.denotation?` says what
an operand stands for, and `Dialect.readOperand` what its text says in each notation.

* `Operand.readAtt_attText`: the AT&T text of an operand says what the operand stands for.
* `Operand.readIntel_intelText_iff`: so does its Intel text, unless the negated displacement wraps.
* `Dialect.readLine_render`: the operands of a line are read one by one, AT&T in reverse.
* `Dialect.operands_denoted_alike_iff`: the two lines of an instruction say the same of its
  operands, and what they stand for, exactly when no displacement wraps.

The negation of -2^63 is written with a second minus sign (`Dialect.least_displacement_misread`).
-/

namespace CodeEmission

/-- Where an address is counted from. -/
inductive AddressBase where
  | register (name : String)
  | instructionPointer
  | zero
  deriving DecidableEq, Repr

/-- What an operand stands for. -/
inductive Denotation where
  | register (name : String)
  | immediate (value : Int)
  | symbol (name : String)
  | address (base : AddressBase) (sym? : Option String) (disp : Int)
  deriving DecidableEq, Repr

/-- What is known of an operand before its text is read. -/
structure OperandOutline where
  /-- The kind of the operand. -/
  kind : OperandKind
  /-- Whether it names a symbol. -/
  hasSym : Bool
  /-- Whether it has a base register. -/
  hasBase : Bool
  deriving DecidableEq, Repr

namespace Operand

/-- What is known of an operand beforehand. -/
def outline (op : Operand) : OperandOutline :=
  { kind := op.kind, hasSym := op.sym ≠ "", hasBase := op.base ≠ "" }

/-- What the address of a memory operand is counted from. -/
def addressBase (arch : Arch) (op : Operand) : AddressBase :=
  if op.base ≠ "" then .register op.base
  else if arch = .x86_64 then .instructionPointer
  else .zero

/-- What an operand stands for, if it is of a known kind. -/
def denotation? (arch : Arch) (op : Operand) : Option Denotation :=
  match op.kind with
  | .reg => some (.register op.reg)
  | .imm => some (.immediate op.imm.toInt)
  | .sym | .label => some (.symbol op.sym)
  | .mem =>
    some (.address (op.addressBase arch) (if op.sym = "" then none else some op.sym) op.disp.toInt)
  | .other _ => none

/-- The names that the text of an operand shows. -/
def shownNames (op : Operand) : List String :=
  match op.kind with
  | .reg => [op.reg]
  | .sym | .label => [op.sym]
  | .mem => [op.base, op.sym]
  | _ => []

/-- The displacement of a memory operand without a symbol is its own negation. -/
def NegationWraps (op : Operand) : Prop :=
  op.kind = .mem ∧ op.sym = "" ∧ op.disp = Int64.minValue

/-- Whether the negated displacement wraps can be computed. -/
instance (op : Operand) : Decidable op.NegationWraps :=
  inferInstanceAs (Decidable (_ ∧ _ ∧ _))

end Operand

namespace Dialect

/-! ## Reading operands -/

/-- A symbol with its offset, or a displacement alone, which may be left out. -/
def target? (hasSym : Bool) (text : List Char) : Option (Option String × Int) :=
  if hasSym then
    (offset? (text.dropWhile isNameChar)).map fun disp =>
      (some (String.ofList (text.takeWhile isNameChar)), disp)
  else if text = [] then some (none, 0)
  else (Text.integer? text).map fun disp => (none, disp)

/-- What stands in parentheses behind an AT&T address. Where no base register is known, it can only
be the instruction pointer. -/
def parenthesized? (hasBase : Bool) : List Char → Option AddressBase
  | [] => if hasBase then none else some .zero
  | '(' :: '%' :: text =>
    if text.dropWhile isNameChar = [')'] then
      let name := String.ofList (text.takeWhile isNameChar)
      if hasBase then some (.register name)
      else if name = "rip" then some .instructionPointer
      else none
    else none
  | _ => none

/-- What the AT&T text of an operand says. -/
def readAtt (outline : OperandOutline) (text : List Char) : Option Denotation :=
  match outline.kind, text with
  | .reg, '%' :: name => some (.register (String.ofList name))
  | .imm, '$' :: digits => (Text.integer? digits).map .immediate
  | .sym, name | .label, name => some (.symbol (String.ofList name))
  | .mem, text => do
    let base ← parenthesized? outline.hasBase (text.dropWhile (· ≠ '('))
    let (sym?, disp) ← target? outline.hasSym (text.takeWhile (· ≠ '('))
    return .address base sym? disp
  | _, _ => none

/-- The text between brackets. The words for the width stand before them. -/
def bracketed (text : List Char) : List Char :=
  ((text.dropWhile (· ≠ '[')).drop 1).takeWhile (· ≠ ']')

/-- What an Intel address says, from what stands behind its base register. -/
def readBehindBase (hasSym : Bool) (base : AddressBase) : List Char → Option Denotation
  -- a displacement of zero is not written, but a symbol always is
  | [] => if hasSym then none else some (.address base none 0)
  | ' ' :: '+' :: ' ' :: text =>
    (target? hasSym text).map fun (sym?, disp) => .address base sym? disp
  -- behind a symbol the sign belongs to its offset, so this one stands before a number
  | ' ' :: '-' :: ' ' :: text =>
    if hasSym then none
    else (Text.integer? text).map fun n => .address base none (-n)
  | _ => none

/-- What an Intel address without a base register says. -/
def readWithoutBase (hasSym : Bool) : List Char → Option Denotation
  | 'r' :: 'i' :: 'p' :: ' ' :: '+' :: ' ' :: text =>
    (target? hasSym text).map fun (sym?, disp) => .address .instructionPointer sym? disp
  | text => (target? hasSym text).map fun (sym?, disp) => .address .zero sym? disp

/-- What an Intel address says, from its text without the brackets. -/
def readIntelAddress (outline : OperandOutline) (text : List Char) : Option Denotation :=
  if outline.hasBase then
    readBehindBase outline.hasSym (.register (String.ofList (text.takeWhile isNameChar)))
      (text.dropWhile isNameChar)
  else readWithoutBase outline.hasSym text

/-- What the Intel text of an operand says. -/
def readIntel (outline : OperandOutline) (text : List Char) : Option Denotation :=
  match outline.kind with
  | .reg => some (.register (String.ofList text))
  | .imm => (Text.integer? text).map .immediate
  | .sym | .label => some (.symbol (String.ofList text))
  | .mem => readIntelAddress outline (bracketed text)
  | .other _ => none

/-- What the text of an operand says in a notation. -/
def readOperand : Dialect → OperandOutline → List Char → Option Denotation
  | .att => readAtt
  | .intel => readIntel

/-! ## Reading operand lists -/

/-- A list of operands in the order of writing, or back again. AT&T names the last one first. -/
def order {α : Type} : Dialect → List α → List α
  | .att, operands => operands.reverse
  | .intel, operands => operands

/-- The parts of an operand list. A blank stands behind each comma. -/
def splitOperands (text : List Char) : List (List Char) :=
  match text.splitOn ',' with
  | [] => []
  | first :: later => first :: later.map (List.drop 1)

/-- What the texts of operands say, one by one. -/
def readAll (dialect : Dialect) : List OperandOutline → List (List Char) → Option (List Denotation)
  | [], [] => some []
  | outline :: outlines, text :: texts =>
    match dialect.readOperand outline text, dialect.readAll outlines texts with
    | some first, some later => some (first :: later)
    | _, _ => none
  | _, _ => none

/-- What an operand list says. -/
def readOperands (dialect : Dialect) (outlines : List OperandOutline) (text : List Char) :
    Option (List Denotation) :=
  if outlines = [] ∧ text = [] then some []
  else dialect.readAll outlines (dialect.order (splitOperands text))

/-- What the line of an instruction says of its operands. They stand behind a tab, the operation and
another tab. -/
def readLine (dialect : Dialect) (outlines : List OperandOutline) (operation line : String) :
    Option (List Denotation) :=
  dialect.readOperands outlines (line.toList.drop (operation.toList.length + 2))

/-! ## Characters of names and numbers -/

/-- A mark does not stand in a text of names and numbers. -/
theorem not_mem_of_isPlainChar {mark : Char} (hmark : isPlainChar mark = false) {text : List Char}
    (h : ∀ c ∈ text, isPlainChar c = true) : mark ∉ text := fun hmem => by
  rw [h mark hmem] at hmark
  cases hmark

theorem IsIdentifier.comma_not_mem {name : String} (h : IsIdentifier name) : ',' ∉ name.toList :=
  not_mem_of_isPlainChar (by decide) h.isPlainChar

theorem comma_not_mem_ofInt64 (n : Int64) : ',' ∉ (Text.ofInt64 n).toList :=
  not_mem_of_isPlainChar (by decide) (isPlainChar_ofInt n.toInt)

/-- A text of names, numbers and blanks. -/
def IsSpaced (text : String) : Prop :=
  ∀ c ∈ text.toList, isPlainChar c = true ∨ c = ' '

/-- Whether a text is of names, numbers and blanks can be computed. -/
instance (text : String) : Decidable (IsSpaced text) :=
  List.decidableBAll (fun c => isPlainChar c = true ∨ c = ' ') text.toList

theorem IsSpaced.of_isPlainChar {text : String} (h : ∀ c ∈ text.toList, isPlainChar c = true) :
    IsSpaced text := fun c hc => .inl (h c hc)

theorem IsSpaced.append {a b : String} (ha : IsSpaced a) (hb : IsSpaced b) : IsSpaced (a ++ b) := by
  intro c hc
  rw [String.toList_append] at hc
  exact (List.mem_append.mp hc).elim (ha c) (hb c)

theorem IsSpaced.not_mem {text : String} (h : IsSpaced text) {mark : Char}
    (hmark : ¬ (isPlainChar mark = true ∨ mark = ' ')) : mark ∉ text.toList :=
  fun hmem => hmark (h mark hmem)

/-! ## Reading what is written -/

/-- A symbol with its offset is read back. -/
theorem target?_symPlus {sym : String} (h : IsIdentifier sym) (off : Int64) :
    target? true (symPlus sym off).toList = some (some sym, off.toInt) ∧
      ∀ c ∈ (symPlus sym off).toList, isPlainChar c = true := by
  obtain ⟨offset, htext, hread, hhead, hplain⟩ := exists_offset sym off
  rw [htext]
  refine ⟨?_, List.forall_mem_append.mpr ⟨h.isPlainChar, hplain⟩⟩
  rw [target?, if_pos rfl, Text.takeWhile_run h hhead, Text.dropWhile_run h hhead, hread,
    String.ofList_toList]
  rfl

/-- A displacement alone is read back. -/
theorem target?_ofInt64 (disp : Int64) :
    target? false (Text.ofInt64 disp).toList = some (none, disp.toInt) := by
  have hread := Text.integer?_ofInt disp.toInt
  have hne : (Text.ofInt disp.toInt).toList ≠ [] := by
    intro hnil
    rw [hnil] at hread
    cases hread
  rw [target?, if_neg Bool.false_ne_true, Text.ofInt64, if_neg hne, hread]
  rfl

/-- A register in parentheses is read back. -/
theorem parenthesized?_register {name : String} (h : IsIdentifier name) :
    parenthesized? true ("(%" ++ name ++ ")").toList = some (.register name) := by
  have hchars : ("(%" ++ name ++ ")").toList = '(' :: '%' :: (name.toList ++ [')']) := by simp
  have hhead : ∀ c ∈ [')'].head?, isNameChar c = false := isNameChar_head rfl []
  rw [hchars, parenthesized?, Text.dropWhile_run h hhead, Text.takeWhile_run h hhead, if_pos rfl,
    String.ofList_toList]
  rfl

section IntelAddress

variable {kind : OperandKind} {hasSym : Bool} {name : String} {text : List Char}

/-- An address that starts with a register is read from what stands behind that. -/
theorem readIntelAddress_register (h : IsIdentifier name)
    (hhead : ∀ c ∈ text.head?, isNameChar c = false) :
    readIntelAddress ⟨kind, hasSym, true⟩ (name.toList ++ text) =
      readBehindBase hasSym (.register name) text := by
  rw [readIntelAddress, if_pos rfl, Text.takeWhile_run h hhead, Text.dropWhile_run h hhead,
    String.ofList_toList]

theorem readIntelAddress_blank (h : IsIdentifier name) :
    readIntelAddress ⟨kind, hasSym, true⟩ (name.toList ++ ' ' :: text) =
      readBehindBase hasSym (.register name) (' ' :: text) :=
  readIntelAddress_register h (isNameChar_head rfl text)

/-- Without a blank there is nothing before the symbol. -/
theorem readWithoutBase_bare (h : ' ' ∉ text) :
    readWithoutBase hasSym text =
      (target? hasSym text).map fun (sym?, disp) => .address .zero sym? disp := by
  unfold readWithoutBase
  split
  next => simp at h
  next => rfl

end IntelAddress

/-! ## Operand lists -/

section OperandList

variable {dialect : Dialect}

theorem order_order {α : Type} (operands : List α) :
    dialect.order (dialect.order operands) = operands := by
  cases dialect with
  | att => exact List.reverse_reverse operands
  | intel => rfl

theorem order_map {α β : Type} (g : α → β) (operands : List α) :
    dialect.order (operands.map g) = (dialect.order operands).map g := by
  cases dialect with
  | att => exact List.map_reverse.symm
  | intel => rfl

theorem mem_order {α : Type} {operands : List α} {a : α} :
    a ∈ dialect.order operands ↔ a ∈ operands := by
  cases dialect with
  | att => exact List.mem_reverse
  | intel => rfl

theorem length_order {α : Type} (operands : List α) :
    (dialect.order operands).length = operands.length := by
  cases dialect with
  | att => exact List.length_reverse
  | intel => rfl

/-- The first text says the first denotation and the others say the others. -/
theorem readAll_cons_iff {outline : OperandOutline} {outlines : List OperandOutline} {text : String}
    {texts : List String} {d : Denotation} {ds : List Denotation} :
    dialect.readAll (outline :: outlines) ((text :: texts).map String.toList) = some (d :: ds) ↔
      dialect.readOperand outline text.toList = some d ∧
        dialect.readAll outlines (texts.map String.toList) = some ds := by
  rw [List.map_cons, readAll]
  split
  next first later hfirst hlater => simp [hfirst, hlater]
  next hnone =>
    refine iff_of_false nofun ?_
    rintro ⟨hfirst, hlater⟩
    exact hnone d ds hfirst hlater

/-- The parts of a joined operand list are the texts that were joined. -/
theorem splitOperands_intercalate {text : String} {texts : List String}
    (h : ∀ t ∈ text :: texts, ',' ∉ t.toList) :
    splitOperands (String.intercalate ", " (text :: texts)).toList =
      (text :: texts).map String.toList := by
  rw [splitOperands, Text.splitOn_intercalate_pair rfl (by decide) h]
  simp

/-- The operands of a line are read one by one. -/
theorem readLine_render {outlines : List OperandOutline} {texts : List String} (p : Profile)
    (operation : String) (hlength : outlines.length = texts.length)
    (hcommas : ∀ text ∈ texts, ',' ∉ text.toList) :
    dialect.readLine outlines operation ((Line.instruction operation texts).render p) =
      dialect.readAll outlines (dialect.order (texts.map String.toList)) := by
  cases texts with
  | nil =>
    -- the line ends behind the operation
    have hline : (Line.instruction operation []).render p = "\t" ++ operation := rfl
    have hempty : ("\t" ++ operation).toList.drop (operation.toList.length + 2) = [] :=
      List.drop_of_length_le (by simp)
    rw [List.length_eq_zero_iff.mp hlength, readLine, hline, hempty]
    cases dialect <;> rfl
  | cons text later =>
    have hline : (Line.instruction operation (text :: later)).render p =
        "\t" ++ operation ++ "\t" ++ String.intercalate ", " (text :: later) := rfl
    have hlist : ("\t" ++ operation ++ "\t" ++ String.intercalate ", " (text :: later)).toList.drop
        (operation.toList.length + 2) = (String.intercalate ", " (text :: later)).toList := by
      have hlead : ("\t" ++ operation ++ "\t").toList.length = operation.toList.length + 2 := by
        simp
      rw [String.toList_append, ← hlead, List.drop_left]
    have houtlines : outlines ≠ [] := List.ne_nil_of_length_eq_add_one hlength
    rw [readLine, hline, hlist, readOperands, if_neg fun h => houtlines h.1,
      splitOperands_intercalate hcommas]

end OperandList

end Dialect

/-! ## The AT&T notation -/

namespace Operand

variable {op : Operand}

/-- What stands before the parentheses of an AT&T address. A displacement of zero is left out. -/
def attTarget (op : Operand) : String :=
  if op.sym ≠ "" then symPlus op.sym op.disp
  else if op.disp = 0 then ""
  else Text.ofInt64 op.disp

theorem attAddress_eq (arch : Arch) (h : op.base ≠ "" ∨ op.sym ≠ "") :
    op.attAddress arch = op.attTarget ++ op.closing arch .att := by
  unfold attAddress attTarget closing
  by_cases hsym : op.sym = ""
  · have hbase : op.base ≠ "" := h.resolve_right (not_not_intro hsym)
    by_cases hdisp : op.disp = 0
    · simp [hsym, hbase, hdisp]
    · simp [hsym, hbase, hdisp, String.append_assoc]
  · by_cases hbase : op.base = ""
    · by_cases harch : arch = .x86_64 <;> simp [hsym, hbase, harch]
    · simp [hsym, hbase, String.append_assoc]

/-- What stands before the parentheses is read back. -/
theorem target?_attTarget (hsym : Dialect.IsIdentifier op.sym) :
    Dialect.target? op.outline.hasSym op.attTarget.toList =
        some (if op.sym = "" then none else some op.sym, op.disp.toInt) ∧
      ∀ c ∈ op.attTarget.toList, Dialect.isPlainChar c = true := by
  unfold attTarget outline
  by_cases hnone : op.sym = ""
  · by_cases hdisp : op.disp = 0
    · simp [hnone, hdisp, Dialect.target?]
    · simpa [hnone, hdisp] using
        ⟨Dialect.target?_ofInt64 op.disp, Dialect.isPlainChar_ofInt op.disp.toInt⟩
  · simpa [hnone] using Dialect.target?_symPlus hsym op.disp

/-- What stands in the parentheses is read back. -/
theorem parenthesized?_closing (arch : Arch) (hbase : Dialect.IsIdentifier op.base) :
    Dialect.parenthesized? op.outline.hasBase (op.closing arch .att).toList =
        some (op.addressBase arch) ∧
      (∀ c ∈ (op.closing arch .att).toList.head?, c = '(') ∧
      ',' ∉ (op.closing arch .att).toList := by
  unfold closing outline addressBase
  by_cases hnone : op.base = ""
  · by_cases harch : arch = .x86_64
    · simp only [hnone, harch]
      exact ⟨by decide, by simp, by decide⟩
    · simp [hnone, harch, Dialect.parenthesized?]
  · have hread := Dialect.parenthesized?_register hbase
    refine ⟨by simpa [hnone] using hread, ?_, ?_⟩
    · simp [hnone]
    · simpa [hnone] using hbase.comma_not_mem

/-- The AT&T text of a memory operand says what the operand stands for. -/
theorem readAtt_attAddress {locals : List String} (arch : Arch) (hkind : op.kind = .mem)
    (hwell : op.WellFormed locals) (hbase : Dialect.IsIdentifier op.base)
    (hsym : Dialect.IsIdentifier op.sym) :
    ',' ∉ (op.attAddress arch).toList ∧
      Dialect.readAtt op.outline (op.attAddress arch).toList = op.denotation? arch := by
  obtain ⟨htarget, hplain⟩ := target?_attTarget hsym
  obtain ⟨hparen, hhead, hcomma⟩ := parenthesized?_closing arch hbase
  have hsome : op.base ≠ "" ∨ op.sym ≠ "" := by simpa [WellFormed, hkind] using hwell
  rw [attAddress_eq arch hsome, String.toList_append]
  refine ⟨?_, ?_⟩
  · rw [List.mem_append, not_or]
    exact ⟨Dialect.not_mem_of_isPlainChar (by decide) hplain, hcomma⟩
  · -- the text up to the parenthesis is the target
    have hmark : '(' ∉ op.attTarget.toList := Dialect.not_mem_of_isPlainChar (by decide) hplain
    have hrun : ∀ c ∈ op.attTarget.toList, (c ≠ '(' : Bool) = true := fun c hc =>
      decide_eq_true fun heq => hmark (heq ▸ hc)
    have hend : ∀ c ∈ (op.closing arch .att).toList.head?, (c ≠ '(' : Bool) = false := by
      simpa using hhead
    have houtline : op.outline.kind = .mem := hkind
    unfold Dialect.readAtt
    rw [houtline]
    simp only [Text.dropWhile_run hrun hend, Text.takeWhile_run hrun hend, hparen, htarget]
    simp [denotation?, hkind]

/-- The AT&T text of an operand says what the operand stands for. -/
theorem readAtt_attText {locals : List String} (arch : Arch) (hwell : op.WellFormed locals)
    (hnames : ∀ name ∈ op.shownNames, Dialect.IsIdentifier name) :
    ∃ text, op.attText arch = .ok text ∧ ',' ∉ text.toList ∧
      Dialect.readAtt op.outline text.toList = op.denotation? arch := by
  unfold attText
  cases hkind : op.kind with
  | reg =>
    have hreg : Dialect.IsIdentifier op.reg := hnames op.reg (by simp [shownNames, hkind])
    refine ⟨_, rfl, by simpa using hreg.comma_not_mem, ?_⟩
    simp [Dialect.readAtt, outline, denotation?, hkind]
  | imm =>
    refine ⟨_, rfl, by simpa using Dialect.comma_not_mem_ofInt64 op.imm, ?_⟩
    have hread := Text.integer?_ofInt op.imm.toInt
    simp [Dialect.readAtt, outline, denotation?, hkind, Text.ofInt64, hread]
  | sym | label =>
    have hsym : Dialect.IsIdentifier op.sym := hnames op.sym (by simp [shownNames, hkind])
    refine ⟨_, rfl, hsym.comma_not_mem, ?_⟩
    simp [Dialect.readAtt, outline, denotation?, hkind]
  | mem =>
    obtain ⟨hnone, hread⟩ := readAtt_attAddress arch hkind hwell
      (hnames op.base (by simp [shownNames, hkind])) (hnames op.sym (by simp [shownNames, hkind]))
    exact ⟨_, rfl, hnone, hread⟩
  | other text => simp [WellFormed, hkind] at hwell

/-! ## The Intel notation -/

/-- The displacement that an Intel text shows. One below zero is written as a difference from its
negation. -/
def intelDisp (op : Operand) : Int :=
  if op.sym = "" ∧ op.disp < 0 then -(-op.disp).toInt else op.disp.toInt

/-- The negation of a number below zero wraps for the least number alone. -/
theorem neg_toInt_neg_eq_iff {disp : Int64} (h : disp < 0) :
    -(-disp).toInt = disp.toInt ↔ disp ≠ Int64.minValue := by
  have hneg : disp.toInt < 0 := Int64.lt_iff_toInt_lt.mp h
  constructor
  · rintro hsame rfl
    exact absurd hsame (by decide)
  · -- above the least number the negation is in range
    intro hne
    have hlow : -2 ^ 63 ≤ disp.toInt := disp.minValue_le_toInt
    have hleast : disp.toInt ≠ -2 ^ 63 := fun heq => hne (Int64.toInt_inj.mp heq)
    rw [Int64.toInt_neg, Int.bmod_eq_of_le (by omega) (by omega), Int.neg_neg]

/-- The displacement that is shown is that of the operand unless its negation wraps. -/
theorem intelDisp_eq_iff (hkind : op.kind = .mem) :
    op.intelDisp = op.disp.toInt ↔ ¬ op.NegationWraps := by
  unfold intelDisp NegationWraps
  by_cases hneg : op.sym = "" ∧ op.disp < 0
  · rw [if_pos hneg, neg_toInt_neg_eq_iff hneg.2]
    simp [hkind, hneg.1]
  · rw [if_neg hneg]
    refine iff_of_true rfl ?_
    rintro ⟨-, hsym, hleast⟩
    exact hneg ⟨hsym, hleast ▸ by decide⟩

/-- The address of an Intel operand with a symbol is read back. -/
theorem readIntelAddress_of_sym (arch : Arch) (hsome : op.sym ≠ "")
    (hbase : Dialect.IsIdentifier op.base) (hsym : Dialect.IsIdentifier op.sym) :
    Dialect.readIntelAddress op.outline (op.intelAddress arch).toList =
      some (.address (op.addressBase arch) (some op.sym) op.disp.toInt) := by
  obtain ⟨hread, hplain⟩ := Dialect.target?_symPlus hsym op.disp
  have houtline : op.outline = ⟨op.kind, true, op.base ≠ ""⟩ := by simp [outline, hsome]
  rw [houtline]
  unfold intelAddress addressBase
  rw [if_pos hsome]
  by_cases hnone : op.base = ""
  · by_cases harch : arch = .x86_64
    · have hbehind : Dialect.readWithoutBase true
          ("rip + " ++ symPlus op.sym op.disp).toList =
            some (.address .instructionPointer (some op.sym) op.disp.toInt) := by
        rw [String.toList_append]
        show (Dialect.target? true (symPlus op.sym op.disp).toList).map _ = _
        rw [hread]
        rfl
      simpa [hnone, harch, Dialect.readIntelAddress] using hbehind
    · have hblank : ' ' ∉ (symPlus op.sym op.disp).toList :=
        Dialect.not_mem_of_isPlainChar (by decide) hplain
      simp [hnone, harch, Dialect.readIntelAddress, Dialect.readWithoutBase_bare hblank, hread]
  · have htext : (op.base ++ " + " ++ symPlus op.sym op.disp).toList =
        op.base.toList ++ ' ' :: '+' :: ' ' :: (symPlus op.sym op.disp).toList := by simp
    simp only [hnone, ne_eq, not_false_eq_true, decide_true, if_true, htext,
      Dialect.readIntelAddress_blank hbase, Dialect.readBehindBase, hread, Option.map_some]

/-- The address of an Intel operand without a symbol is read with the displacement that is shown. -/
theorem readIntelAddress_of_base (arch : Arch) (hnone : op.sym = "") (hsome : op.base ≠ "")
    (hbase : Dialect.IsIdentifier op.base) :
    Dialect.readIntelAddress op.outline (op.intelAddress arch).toList =
      some (.address (op.addressBase arch) none op.intelDisp) := by
  have houtline : op.outline = ⟨op.kind, false, true⟩ := by simp [outline, hnone, hsome]
  rw [houtline]
  unfold intelAddress addressBase intelDisp
  rw [if_neg (not_not_intro hnone), if_pos hsome]
  -- the sign of the displacement decides what stands behind the register
  by_cases hpos : 0 < op.disp
  · have hneg : ¬ op.disp < 0 := fun hneg => by
      rw [Int64.lt_iff_toInt_lt] at hpos hneg
      omega
    have htext : (op.base ++ " + " ++ Text.ofInt64 op.disp).toList =
        op.base.toList ++ ' ' :: '+' :: ' ' :: (Text.ofInt64 op.disp).toList := by simp
    simp only [hpos, hneg, and_false, if_true, if_false, htext,
      Dialect.readIntelAddress_blank hbase, Dialect.readBehindBase, Dialect.target?_ofInt64,
      Option.map_some]
  · by_cases hneg : op.disp < 0
    · have htext : (op.base ++ " - " ++ Text.ofInt64 (-op.disp)).toList =
          op.base.toList ++ ' ' :: '-' :: ' ' :: (Text.ofInt64 (-op.disp)).toList := by simp
      have hread : Text.integer? (Text.ofInt64 (-op.disp)).toList = some (-op.disp).toInt :=
        Text.integer?_ofInt _
      simp only [hpos, hneg, hnone, and_self, if_true, if_false, htext,
        Dialect.readIntelAddress_blank hbase, Dialect.readBehindBase, hread, Option.map_some,
        Bool.false_eq_true]
    · have hzero : op.disp.toInt = 0 := by
        rw [Int64.lt_iff_toInt_lt] at hpos hneg
        have : (0 : Int64).toInt = 0 := rfl
        omega
      rw [if_neg hpos, if_neg hneg, if_neg (fun h => hneg h.2), hzero,
        ← List.append_nil op.base.toList, Dialect.readIntelAddress_register hbase (by simp)]
      rfl

/-- An Intel address is written with names, numbers and blanks. -/
theorem isSpaced_intelAddress (arch : Arch) (hbase : Dialect.IsIdentifier op.base)
    (hsym : Dialect.IsIdentifier op.sym) : Dialect.IsSpaced (op.intelAddress arch) := by
  have hreg : Dialect.IsSpaced op.base := .of_isPlainChar hbase.isPlainChar
  have htarget : Dialect.IsSpaced (symPlus op.sym op.disp) :=
    .of_isPlainChar (Dialect.target?_symPlus hsym op.disp).2
  have hnumber (n : Int64) : Dialect.IsSpaced (Text.ofInt64 n) :=
    .of_isPlainChar (Dialect.isPlainChar_ofInt n.toInt)
  have hplus : Dialect.IsSpaced " + " := by decide
  have hminus : Dialect.IsSpaced " - " := by decide
  have hpointer : Dialect.IsSpaced "rip + " := by decide
  unfold intelAddress
  split
  · split
    · exact (hreg.append hplus).append htarget
    · split
      · exact hpointer.append htarget
      · exact htarget
  · split
    · exact (hreg.append hplus).append (hnumber _)
    · split
      · exact (hreg.append hminus).append (hnumber _)
      · exact hreg

/-- The words for a width hold no mark of an address or of a list. -/
theorem marks_not_mem_intelWidth (suffix : String) :
    '[' ∉ (intelWidth suffix).toList ∧ ',' ∉ (intelWidth suffix).toList := by
  unfold intelWidth
  split <;> decide

/-- What an Intel memory operand says, from its text with the brackets. -/
theorem bracketed_intelText {address : String} (suffix : String) (h : Dialect.IsSpaced address) :
    Dialect.bracketed (intelWidth suffix ++ "[" ++ address ++ "]").toList = address.toList := by
  have hopen : ∀ c ∈ (intelWidth suffix).toList, (c ≠ '[' : Bool) = true := fun c hc =>
    decide_eq_true fun heq => (marks_not_mem_intelWidth suffix).1 (heq ▸ hc)
  have hclose : ∀ c ∈ address.toList, (c ≠ ']' : Bool) = true := fun c hc =>
    decide_eq_true fun heq => h.not_mem (by decide) (heq ▸ hc)
  have htext : (intelWidth suffix ++ "[" ++ address ++ "]").toList =
      (intelWidth suffix).toList ++ '[' :: (address.toList ++ [']']) := by simp
  rw [htext, Dialect.bracketed, Text.dropWhile_run hopen (by simp), List.drop_succ_cons,
    List.drop_zero, Text.takeWhile_run hclose (by simp)]

/-- The Intel text of a memory operand says what the operand stands for, but for the displacement
that is shown. -/
theorem readIntel_intelAddress {locals : List String} (arch : Arch) (suffix : String)
    (hkind : op.kind = .mem) (hwell : op.WellFormed locals)
    (hbase : Dialect.IsIdentifier op.base) (hsym : Dialect.IsIdentifier op.sym) :
    Dialect.readIntel op.outline (intelWidth suffix ++ "[" ++ op.intelAddress arch ++ "]").toList =
      some (.address (op.addressBase arch) (if op.sym = "" then none else some op.sym)
        op.intelDisp) := by
  have hsome : op.base ≠ "" ∨ op.sym ≠ "" := by simpa [WellFormed, hkind] using hwell
  have houtline : op.outline.kind = .mem := hkind
  unfold Dialect.readIntel
  rw [houtline]
  simp only [bracketed_intelText suffix (isSpaced_intelAddress arch hbase hsym)]
  by_cases hnone : op.sym = ""
  · rw [if_pos hnone]
    exact readIntelAddress_of_base arch hnone (hsome.resolve_right (not_not_intro hnone)) hbase
  · rw [if_neg hnone, readIntelAddress_of_sym arch hnone hbase hsym, intelDisp,
      if_neg fun h => hnone h.1]

/-- The Intel text of an operand says what the operand stands for, unless its displacement is
negated and wraps. -/
theorem readIntel_intelText_iff {locals : List String} (arch : Arch) (suffix : String)
    (hwell : op.WellFormed locals)
    (hnames : ∀ name ∈ op.shownNames, Dialect.IsIdentifier name) :
    ∃ text, op.intelText arch suffix = .ok text ∧ ',' ∉ text.toList ∧
      (Dialect.readIntel op.outline text.toList = op.denotation? arch ↔ ¬ op.NegationWraps) := by
  have hkept (h : op.kind ≠ .mem) : ¬ op.NegationWraps := fun hwraps => h hwraps.1
  unfold intelText
  cases hkind : op.kind with
  | reg =>
    have hreg : Dialect.IsIdentifier op.reg := hnames op.reg (by simp [shownNames, hkind])
    refine ⟨_, rfl, hreg.comma_not_mem, iff_of_true ?_ (hkept (by simp [hkind]))⟩
    simp [Dialect.readIntel, outline, denotation?, hkind]
  | imm =>
    have hread := Text.integer?_ofInt op.imm.toInt
    refine ⟨_, rfl, Dialect.comma_not_mem_ofInt64 op.imm,
      iff_of_true ?_ (hkept (by simp [hkind]))⟩
    simp [Dialect.readIntel, outline, denotation?, hkind, Text.ofInt64, hread]
  | sym | label =>
    have hsym : Dialect.IsIdentifier op.sym := hnames op.sym (by simp [shownNames, hkind])
    refine ⟨_, rfl, hsym.comma_not_mem, iff_of_true ?_ (hkept (by simp [hkind]))⟩
    simp [Dialect.readIntel, outline, denotation?, hkind]
  | mem =>
    have hbase : Dialect.IsIdentifier op.base := hnames op.base (by simp [shownNames, hkind])
    have hsym : Dialect.IsIdentifier op.sym := hnames op.sym (by simp [shownNames, hkind])
    refine ⟨_, rfl, ?_, ?_⟩
    · have haddress : ',' ∉ (op.intelAddress arch).toList :=
        (isSpaced_intelAddress arch hbase hsym).not_mem (by decide)
      simpa using ⟨(marks_not_mem_intelWidth suffix).2, haddress⟩
    · rw [readIntel_intelAddress arch suffix hkind hwell hbase hsym, ← intelDisp_eq_iff hkind]
      simp [denotation?, hkind]
  | other text => simp [WellFormed, hkind] at hwell

/-! ## Both notations -/

/-- The text of an operand says what the operand stands for, unless it is an Intel text and the
displacement is negated and wraps. -/
theorem readOperand_text_iff {locals : List String} (dialect : Dialect) (arch : Arch)
    (suffix : String) (hwell : op.WellFormed locals)
    (hnames : ∀ name ∈ op.shownNames, Dialect.IsIdentifier name) :
    ∃ text, op.text dialect arch suffix = .ok text ∧ ',' ∉ text.toList ∧
      (dialect.readOperand op.outline text.toList = op.denotation? arch ↔
        (dialect = .intel → ¬ op.NegationWraps)) := by
  -- only the Intel notation negates a displacement
  cases dialect with
  | att =>
    obtain ⟨text, htext, hcomma, hread⟩ := readAtt_attText arch hwell hnames
    exact ⟨text, htext, hcomma, iff_of_true hread nofun⟩
  | intel =>
    obtain ⟨text, htext, hcomma, hread⟩ := readIntel_intelText_iff arch suffix hwell hnames
    exact ⟨text, htext, hcomma, hread.trans (by simp)⟩

/-- Well-formed operands stand for something. -/
theorem exists_denotations {locals : List String} {ops : List Operand} (arch : Arch)
    (hwell : ∀ op ∈ ops, op.WellFormed locals) :
    ∃ ds, ops.mapM (denotation? arch) = some ds := by
  induction ops with
  | nil => exact ⟨[], rfl⟩
  | cons op rest ih =>
    obtain ⟨hop, hrest⟩ := List.forall_mem_cons.mp hwell
    obtain ⟨d, hd⟩ : ∃ d, op.denotation? arch = some d := by
      cases hkind : op.kind with
      | other text => simp [WellFormed, hkind] at hop
      | _ => exact ⟨_, by rw [denotation?, hkind]⟩
    obtain ⟨ds, hds⟩ := ih hrest
    exact ⟨d :: ds, by simp [List.mapM_cons, hd, hds]⟩

/-- The texts of operands say what the operands stand for, unless they are Intel texts and one of
the displacements is negated and wraps. -/
theorem readAll_operandTexts_iff {locals : List String} {ops : List Operand} {ds : List Denotation}
    (dialect : Dialect) (arch : Arch) (suffix : String) (j : Nat)
    (hwell : ∀ op ∈ ops, op.WellFormed locals)
    (hnames : ∀ op ∈ ops, ∀ name ∈ op.shownNames, Dialect.IsIdentifier name)
    (hds : ops.mapM (denotation? arch) = some ds) :
    ∃ texts, Inst.operandTexts dialect arch suffix j ops = .ok texts ∧
      texts.length = ops.length ∧ (∀ text ∈ texts, ',' ∉ text.toList) ∧
      (dialect.readAll (ops.map outline) (texts.map String.toList) = some ds ↔
        ∀ op ∈ ops, dialect = .intel → ¬ op.NegationWraps) := by
  -- the number of an operand only matters where one cannot be written
  induction ops generalizing j ds with
  | nil =>
    obtain rfl : [] = ds := Option.some.inj hds
    exact ⟨[], rfl, rfl, nofun, iff_of_true rfl nofun⟩
  | cons op rest ih =>
    obtain ⟨hop, hrest⟩ := List.forall_mem_cons.mp hwell
    obtain ⟨hopNames, hrestNames⟩ := List.forall_mem_cons.mp hnames
    obtain ⟨d, hd, later, hlater, rfl⟩ : ∃ d, op.denotation? arch = some d ∧
        ∃ later, rest.mapM (denotation? arch) = some later ∧ d :: later = ds := by
      simpa [List.mapM_cons, Option.bind_eq_some_iff] using hds
    obtain ⟨text, htext, hcomma, hread⟩ := readOperand_text_iff dialect arch suffix hop hopNames
    obtain ⟨texts, htexts, hlength, hcommas, hreads⟩ := ih (j + 1) hrest hrestNames hlater
    refine ⟨text :: texts, by simp only [Inst.operandTexts, htext, htexts], by simp [hlength],
      List.forall_mem_cons.mpr ⟨hcomma, hcommas⟩, ?_⟩
    rw [hd] at hread
    rw [List.forall_mem_cons, ← hread, ← hreads]
    exact Dialect.readAll_cons_iff

end Operand

namespace Inst

variable {inst : Inst}

/-- The operation and the operand texts of an instruction, once the texts are there. -/
theorem parts_of_operandTexts {dialect : Dialect} {arch : Arch} {texts : List String}
    (h : operandTexts dialect arch inst.suffix 0 inst.operands = .ok texts) :
    ∃ operation, inst.parts dialect arch = .ok (operation, dialect.order texts) := by
  rw [parts, h]
  cases dialect with
  | att => exact ⟨_, rfl⟩
  | intel => exact ⟨_, rfl⟩

/-- The line of an instruction says what its operands stand for, unless it is an Intel line and one
of the displacements is negated and wraps. -/
theorem readLine_parts_iff {locals : List String} {ds : List Denotation} (p : Profile)
    (dialect : Dialect) (hwell : ∀ op ∈ inst.operands, op.WellFormed locals)
    (hnames : ∀ op ∈ inst.operands, ∀ name ∈ op.shownNames, Dialect.IsIdentifier name)
    (hds : inst.operands.mapM (Operand.denotation? p.arch) = some ds) :
    ∃ operation texts, inst.parts dialect p.arch = .ok (operation, texts) ∧
      (dialect.readLine (inst.operands.map Operand.outline) operation
          ((Line.instruction operation texts).render p) = some ds ↔
        ∀ op ∈ inst.operands, dialect = .intel → ¬ op.NegationWraps) := by
  obtain ⟨texts, htexts, hlength, hcommas, hreads⟩ :=
    Operand.readAll_operandTexts_iff dialect p.arch inst.suffix 0 hwell hnames hds
  obtain ⟨operation, hparts⟩ := parts_of_operandTexts htexts
  refine ⟨operation, dialect.order texts, hparts, ?_⟩
  have houtlines : (inst.operands.map Operand.outline).length = (dialect.order texts).length := by
    rw [List.length_map, dialect.length_order, hlength]
  have hwritten : ∀ text ∈ dialect.order texts, ',' ∉ text.toList := fun text htext =>
    hcommas text (Dialect.mem_order.mp htext)
  -- reading undoes the order of writing
  rw [Dialect.readLine_render p operation houtlines hwritten, ← Dialect.order_map,
    Dialect.order_order, hreads]

end Inst

/-- An instruction with operands that pass the checks and with identifiers for names is written in
both notations. Its AT&T line says of the operands, in reverse, what they stand for, and its Intel
line says the same in order, unless a displacement without a symbol is its own negation. -/
theorem Dialect.operands_denoted_alike_iff (p : Profile) (f : Func) (i : Nat) (inst : Inst)
    (haccepted : (inst.operands.zipIdx.flatMap fun (op, j) => op.faults f.locals i j) = [])
    (hnames : ∀ op ∈ inst.operands, ∀ name ∈ op.shownNames, IsIdentifier name) :
    ∃ ds attOp attTexts intelOp intelTexts,
      inst.operands.mapM (Operand.denotation? p.arch) = some ds ∧
      inst.parts .att p.arch = .ok (attOp, attTexts) ∧
      inst.parts .intel p.arch = .ok (intelOp, intelTexts) ∧
      readLine .att (inst.operands.map Operand.outline) attOp
        ((Line.instruction attOp attTexts).render p) = some ds ∧
      (readLine .intel (inst.operands.map Operand.outline) intelOp
          ((Line.instruction intelOp intelTexts).render p) = some ds ↔
        ∀ op ∈ inst.operands, ¬ op.NegationWraps) := by
  have hwell : ∀ op ∈ inst.operands, op.WellFormed f.locals :=
    (flatMap_zipIdx_eq_nil_iff (Operand.faults_eq_nil_iff f.locals i) inst.operands).mp haccepted
  -- what the operands stand for has nothing to do with the notation
  obtain ⟨ds, hds⟩ := Operand.exists_denotations p.arch hwell
  obtain ⟨attOp, attTexts, hatt, hreadAtt⟩ := inst.readLine_parts_iff p .att hwell hnames hds
  obtain ⟨intelOp, intelTexts, hintel, hreadIntel⟩ :=
    inst.readLine_parts_iff p .intel hwell hnames hds
  refine ⟨ds, attOp, attTexts, intelOp, intelTexts, hds, hatt, hintel, ?_, ?_⟩
  · exact hreadAtt.mpr fun _ _ => nofun
  · simpa using hreadIntel

/-- A load into a register from an address that is counted from another one. -/
def Inst.loadFrom (disp : Int64) : Inst :=
  { op := "mov"
    suffix := "q"
    operands := [{ kind := .reg, reg := "rax" }, { kind := .mem, base := "rdi", disp }] }

/-- A load from below a register: the Intel displacement is a difference. -/
theorem Dialect.load_below_denoted_alike :
    let load := Inst.loadFrom (-8)
    let outlines := load.operands.map Operand.outline
    let ds := [.register "rax", .address (.register "rdi") none (-8)]
    (load.operands.zipIdx.flatMap fun (op, j) => op.faults [] 0 j) = [] ∧
      (∀ op ∈ load.operands, ∀ name ∈ op.shownNames, IsIdentifier name) ∧
      load.parts .att Profile.host.arch = .ok ("movq", ["-8(%rdi)", "%rax"]) ∧
      load.parts .intel Profile.host.arch = .ok ("mov", ["rax", "qword ptr [rdi - 8]"]) ∧
      readLine .att outlines "movq" "\tmovq\t-8(%rdi), %rax" = some ds ∧
      readLine .intel outlines "mov" "\tmov\trax, qword ptr [rdi - 8]" = some ds := by
  intro load outlines ds
  have haccepted : (load.operands.zipIdx.flatMap fun (op, j) => op.faults [] 0 j) = [] := by decide
  have hnames : ∀ op ∈ load.operands, ∀ name ∈ op.shownNames, IsIdentifier name := by decide
  have hatt : load.parts .att Profile.host.arch = .ok ("movq", ["-8(%rdi)", "%rax"]) := by decide
  have hintel : load.parts .intel Profile.host.arch =
      .ok ("mov", ["rax", "qword ptr [rdi - 8]"]) := by decide
  obtain ⟨_, _, _, _, _, hds, hatt', hintel', hreadAtt, hreadIntel⟩ :=
    operands_denoted_alike_iff Profile.host { name := "f", linkage := .global } 0 load
      haccepted hnames
  obtain rfl : ds = _ := Option.some.inj hds
  cases hatt.symm.trans hatt'
  cases hintel.symm.trans hintel'
  exact ⟨haccepted, hnames, hatt, hintel, hreadAtt, hreadIntel.mpr (by decide)⟩

/-- The negation of the least displacement keeps its sign, so its Intel text has two of them and
says the opposite. -/
theorem Dialect.least_displacement_misread :
    let load := Inst.loadFrom Int64.minValue
    let outlines := load.operands.map Operand.outline
    (load.operands.zipIdx.flatMap fun (op, j) => op.faults [] 0 j) = [] ∧
      (∀ op ∈ load.operands, ∀ name ∈ op.shownNames, IsIdentifier name) ∧
      load.parts .att .x86_64 = .ok ("movq", ["-9223372036854775808(%rdi)", "%rax"]) ∧
      load.parts .intel .x86_64 =
        .ok ("mov", ["rax", "qword ptr [rdi - -9223372036854775808]"]) ∧
      readLine .att outlines "movq" "\tmovq\t-9223372036854775808(%rdi), %rax" =
        some [.register "rax", .address (.register "rdi") none (-9223372036854775808)] ∧
      readLine .intel outlines "mov" "\tmov\trax, qword ptr [rdi - -9223372036854775808]" =
        some [.register "rax", .address (.register "rdi") none 9223372036854775808] := by
  decide

end CodeEmission
