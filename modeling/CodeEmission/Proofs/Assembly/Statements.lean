import CodeEmission.Proofs.Assembly.Marks
import CodeEmission.Proofs.Assembly.Texts

/-!
# Statements of an Assembly Text

An assembler reads characters. It cuts a text at the line feeds, and what a line is follows from its
first word: a word with a colon behind it is defined, a word that starts with a dot is a directive, and
any other word is an operation. `Statement.ofText` reads a text in this way and knows nothing of the
listing that the text was printed from.

The words are those of the unit, and some of them change what the line is: an operation `.globl` is a
directive. `Line.IsLegible` says that the names in a line are names and its operation is an operation.

* `Statement.read_render`: a legible line is read as what it was printed for.
* `Statement.ofText_render`: a text of legible lines is read line by line.
* `Statement.label?_statement`, `Statement.instruction?_statement`: labels and instructions are found
  where the listing has them.
-/

namespace CodeEmission

/-- What an assembler takes a line for. -/
inductive Statement where
  | label (name : String)
  | directive (word argument : String)
  | instruction (line : String)
  | remark
  | unreadable
  deriving DecidableEq, Repr

namespace Statement

open Dialect (isNameChar IsSymbolName)

/-! ## Reading a text -/

/-- Whether a character stands between words. -/
def isGap (c : Char) : Bool :=
  c == ' ' || c == '\t'

/-- What an assembler takes a line for. -/
def read (line : List Char) : Statement :=
  let text := line.dropWhile isGap
  let word := String.ofList (text.takeWhile isNameChar)
  let behind := text.dropWhile isNameChar
  if text = [] ∨ text.head? = some '#' then .remark
  -- a name can start with a dot, so the colon decides before the dot does
  else if behind = [':'] ∧ IsSymbolName word then .label word
  else if text.head? = some '.' then .directive word (String.ofList (behind.dropWhile isGap))
  else if word ≠ "" then .instruction (String.ofList line)
  else .unreadable

/-- What an assembler takes the lines of a text for. -/
def ofText (text : String) : List Statement :=
  (text.toList.splitOn '\n').map read

/-- The name that a statement defines. -/
def label? : Statement → Option String
  | label name => some name
  | _ => none

/-- The line of an instruction. -/
def instruction? : Statement → Option String
  | instruction line => some line
  | _ => none

/-! ## Directives, labels and operations -/

/-- The word in the head of a directive. -/
def headWord (head : String) : String :=
  String.ofList ((head.toList.dropWhile isGap).takeWhile isNameChar)

/-- The directive with a head, which ends with a gap. Other gaps before the argument do not count. -/
def directiveOf (head argument : String) : Statement :=
  .directive (headWord head) (String.ofList (argument.toList.dropWhile isGap))

/-- Whether a text is the head of a directive: a tab, a word that starts with a dot, and a gap. -/
def isHead (head : String) : Bool :=
  match head.toList with
  | '\t' :: '.' :: rest =>
    match rest.dropWhile isNameChar with
    | [gap] => isGap gap
    | _ => false
  | _ => false

/-- An operation is a word, or more than one with blanks between them, and starts with no dot. -/
def IsMnemonic (operation : String) : Prop :=
  (∀ c ∈ operation.toList, isNameChar c = true ∨ c = ' ') ∧
    operation.toList.head?.any (fun c => isNameChar c && c != '.') = true

/-- Whether a text is an operation can be computed. -/
instance (operation : String) : Decidable (IsMnemonic operation) :=
  have : Decidable (∀ c ∈ operation.toList, isNameChar c = true ∨ c = ' ') :=
    List.decidableBAll (fun c => isNameChar c = true ∨ c = ' ') operation.toList
  inferInstanceAs (Decidable (_ ∧ _))

theorem isNameChar_eq_false_of_isGap {c : Char} (h : isGap c = true) : isNameChar c = false := by
  rcases Bool.or_eq_true_iff.mp h with h | h
  · rw [beq_iff_eq.mp h]
    rfl
  · rw [beq_iff_eq.mp h]
    rfl

/-- The head of a directive is read up to its gap, and what follows is the argument. -/
theorem read_head {head : String} (h : isHead head = true) (argument : String) :
    read (head ++ argument).toList = directiveOf head argument := by
  obtain ⟨word, gap, hhead, hword, hgap⟩ : ∃ word gap, head.toList = '\t' :: '.' :: word ++ [gap] ∧
      (∀ c ∈ '.' :: word, isNameChar c = true) ∧ isGap gap = true := by
    unfold isHead at h
    split at h
    next rest hlist =>
      split at h
      next gap hgap =>
        refine ⟨rest.takeWhile isNameChar, gap, ?_, ?_, h⟩
        · rw [hlist, List.cons_append, List.cons_append, ← hgap, List.takeWhile_append_dropWhile]
        · exact List.forall_mem_cons.mpr ⟨rfl, fun c hc => List.all_eq_true.mp List.all_takeWhile c hc⟩
      next => cases h
    next => cases h
  -- the gap ends the word, with or without an argument behind it
  have hend (rest : List Char) : ∀ c ∈ (gap :: rest).head?, isNameChar c = false :=
    Dialect.isNameChar_head (isNameChar_eq_false_of_isGap hgap) rest
  have hcolon : gap :: argument.toList ≠ [':'] := fun heq => by
    rw [(List.cons.inj heq).1] at hgap
    exact absurd hgap (by decide)
  have htext : (head ++ argument).toList.dropWhile isGap =
      ('.' :: word) ++ gap :: argument.toList := by
    rw [String.toList_append, hhead]
    simp [isGap]
  have hline : head.toList.dropWhile isGap = ('.' :: word) ++ [gap] := by
    rw [hhead]
    simp [isGap]
  have hdot : ('.' :: word ++ gap :: argument.toList).head? = some '.' := rfl
  unfold read directiveOf headWord
  simp only [htext, hline, Text.takeWhile_run hword (hend _), Text.dropWhile_run hword (hend _)]
  rw [if_neg (by simp), if_neg (fun hlabel => hcolon hlabel.1), if_pos hdot,
    List.dropWhile_cons_of_pos hgap]

/-- A name or a number is the argument as it stands. -/
theorem directiveOf_of_isPlainChar (head : String) {argument : String}
    (h : ∀ c ∈ argument.toList, Dialect.isPlainChar c = true) :
    directiveOf head argument = .directive (headWord head) argument := by
  have htrim : argument.toList.dropWhile isGap = argument.toList := by
    cases hlist : argument.toList with
    | nil => rfl
    | cons c rest =>
      have hc := h c (by simp [hlist])
      refine List.dropWhile_cons_of_neg fun hgap => ?_
      rcases Bool.or_eq_true_iff.mp hgap with hgap | hgap
      · exact absurd (beq_iff_eq.mp hgap ▸ hc) (by decide)
      · exact absurd (beq_iff_eq.mp hgap ▸ hc) (by decide)
  rw [directiveOf, htrim, String.ofList_toList]

/-- A name with a colon behind it is defined. -/
theorem read_label {name : String} (h : IsSymbolName name) :
    read (name ++ ":").toList = .label name := by
  obtain ⟨c, rest, hlist, hc, -⟩ := h.exists_cons
  have hgap : isGap c = false := by
    refine Bool.eq_false_iff.mpr fun hgap => ?_
    rw [isNameChar_eq_false_of_isGap hgap] at hc
    cases hc
  have hsharp : c ≠ '#' := by
    rintro rfl
    exact absurd hc (by decide)
  have hend : ∀ c ∈ [':'].head?, isNameChar c = false := Dialect.isNameChar_head (by decide) []
  have htext : (name ++ ":").toList.dropWhile isGap = name.toList ++ [':'] := by
    rw [String.toList_append, hlist]
    exact List.dropWhile_cons_of_neg (by simp [hgap])
  unfold read
  simp only [htext, Text.takeWhile_run h.2.1 hend, Text.dropWhile_run h.2.1 hend,
    String.ofList_toList]
  rw [if_neg (by simp [hlist, hsharp]), if_pos ⟨trivial, h⟩]

/-- An operation is read as an instruction, with or without operands behind a tab. -/
theorem read_instruction {operation : String} (h : IsMnemonic operation) (operands : String)
    (hoperands : operands = "" ∨ '\t' ∈ operands.toList) :
    read ("\t" ++ operation ++ operands).toList = .instruction ("\t" ++ operation ++ operands) := by
  obtain ⟨hchars, hhead⟩ := h
  cases hlist : operation.toList with
  | nil => simp [hlist] at hhead
  | cons c rest =>
    obtain ⟨hc, hdot⟩ : isNameChar c = true ∧ c ≠ '.' := by simpa [hlist] using hhead
    have hgap : isGap c = false := by
      refine Bool.eq_false_iff.mpr fun hgap => ?_
      rw [isNameChar_eq_false_of_isGap hgap] at hc
      cases hc
    have hsharp : c ≠ '#' := by
      rintro rfl
      exact absurd hc (by decide)
    have htext : ("\t" ++ operation ++ operands).toList.dropWhile isGap =
        c :: (rest ++ operands.toList) := by
      have hline : ("\t" ++ operation ++ operands).toList =
          '\t' :: c :: (rest ++ operands.toList) := by simp [hlist]
      rw [hline, List.dropWhile_cons_of_pos (by decide), List.dropWhile_cons_of_neg (by simp [hgap])]
    -- a colon right behind the first word would be a character of the operation, or leave no tab
    have hcolon : (c :: (rest ++ operands.toList)).dropWhile isNameChar ≠ [':'] := by
      intro hbehind
      have hsplit := List.takeWhile_append_dropWhile (p := isNameChar)
        (l := c :: (rest ++ operands.toList))
      rw [hbehind] at hsplit
      rcases hoperands with rfl | htab
      · have hmem : ':' ∈ operation.toList := by
          have hall : c :: (rest ++ "".toList) = operation.toList := by simp [hlist]
          rw [← hall, ← hsplit]
          exact List.mem_append_right _ List.mem_cons_self
        exact absurd (hchars ':' hmem) (by decide)
      · have hmem : '\t' ∈ (c :: (rest ++ operands.toList)).takeWhile isNameChar ++ [':'] := by
          rw [hsplit]
          exact List.mem_cons_of_mem _ (List.mem_append_right _ htab)
        rcases List.mem_append.mp hmem with hmem | hmem
        · have htab : isNameChar '\t' = true := List.all_eq_true.mp List.all_takeWhile _ hmem
          exact absurd htab (by decide)
        · exact absurd (List.mem_singleton.mp hmem) (by decide)
    have hword : String.ofList ((c :: (rest ++ operands.toList)).takeWhile isNameChar) ≠ "" := by
      rw [List.takeWhile_cons_of_pos hc]
      simp
    unfold read
    simp only [htext, String.ofList_toList]
    rw [if_neg (by simp [hsharp]), if_neg (fun hlabel => hcolon hlabel.1), if_neg (by simp [hdot]),
      if_pos hword]

/-- A comment is for no one but the reader. -/
theorem read_comment {line : List Char} (h : line.head? = some '#') : read line = .remark := by
  obtain ⟨rest, rfl⟩ := List.head?_eq_some_iff.mp h
  have htext : ('#' :: rest).dropWhile isGap = '#' :: rest :=
    List.dropWhile_cons_of_neg (by decide)
  unfold read
  simp only [htext]
  exact if_pos (.inr rfl)

/-- Without a colon nothing is defined. -/
theorem label?_read_of_not_mem {line : List Char} (h : ':' ∉ line) : (read line).label? = none := by
  have hcolon : (line.dropWhile isGap).dropWhile isNameChar ≠ [':'] := by
    intro hbehind
    have hmem : ':' ∈ (line.dropWhile isGap).dropWhile isNameChar := by
      rw [hbehind]
      exact List.mem_singleton_self ':'
    exact h ((List.dropWhile_sublist isGap).subset ((List.dropWhile_sublist isNameChar).subset hmem))
  unfold read
  dsimp only
  split
  · rfl
  · rw [if_neg fun hlabel => hcolon hlabel.1]
    split
    · rfl
    · split <;> rfl

end Statement

/-! ## Lines as statements -/

namespace Line

open Statement (read directiveOf isHead IsMnemonic)
open Dialect (IsSymbolName)

variable {p : Profile} {line : Line}

/-- What an assembler should take a line for. A platform without a directive for weak symbols leaves
nothing of the line but the symbol. -/
def statement (p : Profile) : Line → Statement
  | banner _ => .remark
  | intelMode => directiveOf "\t.intel_syntax " "noprefix"
  | sourceFile path => directiveOf "\t.file\t" (Text.quote path)
  | textSection => read p.textSectionDirective.toList
  | dataSection => read p.dataSectionDirective.toList
  | nonexecStack => directiveOf "\t.section\t" (p.nonexecStackSection ++ ",\"\",@progbits")
  | subsections => .directive ".subsections_via_symbols" ""
  | align amount fill =>
    directiveOf p.alignDirective (Text.ofInt amount ++
      if fill then ", 0x" ++ String.ofList (Nat.toDigits 16 p.textFill.toNat) else "")
  | exported sym => directiveOf p.globalDirective sym
  | weakDefinition sym =>
    if p.weakDefDirective = "" then read sym.toList else directiveOf p.weakDefDirective sym
  | weakReference sym =>
    if p.weakRefDirective = "" then read sym.toList else directiveOf p.weakRefDirective sym
  | functionType sym => directiveOf "\t.type\t" (sym ++ ",@function")
  | objectType sym => directiveOf "\t.type\t" (sym ++ ",@object")
  | label sym => .label sym
  | cfiStart => .directive ".cfi_startproc" ""
  | cfiPersonality sym =>
    directiveOf "\t.cfi_personality " (Nat.repr personalityEncoding ++ ", " ++ sym)
  | cfiEnd => .directive ".cfi_endproc" ""
  | sehStart sym => directiveOf "\t.seh_proc\t" sym
  | sehHandler sym => directiveOf "\t.seh_handler\t" (sym ++ ", @unwind, @except")
  | sehEndPrologue => .directive ".seh_endprologue" ""
  | sehEnd => .directive ".seh_endproc" ""
  | instruction operation operands => .instruction ((instruction operation operands).render p)
  | regionStart => directiveOf "\t.data_region " "jt32"
  | regionEnd => .directive ".end_data_region" ""
  | tableEntry target table => directiveOf p.data32Directive (target ++ "-" ++ table)
  | datum directive value => directiveOf directive value.text

/-- The names in a line are names of symbols, its operation is an operation, the directive of its value
is one of the profile, and no other text leaves the line. -/
def IsLegible (p : Profile) : Line → Prop
  | banner unit => '\n' ∉ unit.toList
  | exported sym | weakDefinition sym | weakReference sym | functionType sym | objectType sym
  | label sym | cfiPersonality sym | sehStart sym | sehHandler sym => IsSymbolName sym
  | instruction operation operands => IsMnemonic operation ∧ ∀ text ∈ operands, '\n' ∉ text.toList
  | tableEntry target table => (target = "" ∨ IsSymbolName target) ∧ IsSymbolName table
  | datum directive value =>
    (∃ size, p.dataDirective? size = some directive) ∧ (value.sym = "" ∨ IsSymbolName value.sym)
  | _ => True

/-- A line for a weak symbol has a directive. -/
def HasDirective (p : Profile) : Line → Prop
  | weakDefinition _ => p.weakDefDirective ≠ ""
  | weakReference _ => p.weakRefDirective ≠ ""
  | _ => True

theorem statement_weakDefinition {sym : String} (h : (weakDefinition sym).HasDirective p) :
    (weakDefinition sym).statement p = directiveOf p.weakDefDirective sym :=
  if_neg h

theorem statement_weakReference {sym : String} (h : (weakReference sym).HasDirective p) :
    (weakReference sym).statement p = directiveOf p.weakRefDirective sym :=
  if_neg h

/-- A legible line is read as what it was printed for. -/
theorem read_render (hp : p.IsUsual) (h : line.IsLegible p) :
    read (line.render p).toList = line.statement p := by
  cases line with
  | banner unit =>
    change read (p.comment ++ " mcemit unit " ++ unit ++ " (" ++ p.bucket.render ++ ")").toList =
      .remark
    refine Statement.read_comment ?_
    rcases hp.comment with hcomment | hcomment <;> simp [hcomment]
  | instruction operation operands =>
    obtain ⟨hoperation, -⟩ := h
    cases operands with
    | nil =>
      have hread := Statement.read_instruction hoperation "" (.inl rfl)
      rwa [String.append_empty] at hread
    | cons operand rest =>
      have hread := Statement.read_instruction hoperation
        ("\t" ++ String.intercalate ", " (operand :: rest)) (.inr (by simp))
      rwa [← String.append_assoc] at hread
  | label sym => exact Statement.read_label h
  | weakDefinition sym =>
    change read (p.weakDefDirective ++ sym).toList =
      if p.weakDefDirective = "" then read sym.toList else directiveOf p.weakDefDirective sym
    rcases hp.weakDefinition with hnone | hword
    · rw [hnone, if_pos rfl, String.empty_append]
    · rw [hword, if_neg (by decide)]
      exact Statement.read_head (by decide) sym
  | weakReference sym =>
    change read (p.weakRefDirective ++ sym).toList =
      if p.weakRefDirective = "" then read sym.toList else directiveOf p.weakRefDirective sym
    rcases hp.weakReference with hnone | hword | hword
    · rw [hnone, if_pos rfl, String.empty_append]
    · rw [hword, if_neg (by decide)]
      exact Statement.read_head (by decide) sym
    · rw [hword, if_neg (by decide)]
      exact Statement.read_head (by decide) sym
  | align amount fill =>
    have hhead : isHead p.alignDirective = true := by
      rcases hp.align with ⟨hword, -⟩ | ⟨hword, -⟩ <;> rw [hword] <;> decide
    have hread := Statement.read_head hhead (Text.ofInt amount ++
      if fill then ", 0x" ++ String.ofList (Nat.toDigits 16 p.textFill.toNat) else "")
    rwa [← String.append_assoc] at hread
  | exported sym =>
    have hhead : isHead p.globalDirective = true := by
      rw [hp.globalDirective]
      decide
    exact Statement.read_head hhead sym
  | tableEntry target table =>
    have hhead : isHead p.data32Directive = true := by
      rw [hp.data32]
      decide
    have hread := Statement.read_head hhead (target ++ "-" ++ table)
    rwa [← String.append_assoc, ← String.append_assoc] at hread
  | datum directive value =>
    obtain ⟨⟨size, hdirective⟩, -⟩ := h
    have hhead : isHead directive = true := by
      rcases hp.directive_of_dataDirective? hdirective with
        ⟨-, hword⟩ | ⟨-, hword⟩ | ⟨-, hword⟩ | ⟨-, hword⟩ <;> rw [hword] <;> decide
    exact Statement.read_head hhead value.text
  | sourceFile path => exact Statement.read_head (by decide) (Text.quote path)
  | intelMode =>
    have hhead : isHead "\t.intel_syntax " = true := by decide
    exact Statement.read_head hhead "noprefix"
  | regionStart =>
    have hhead : isHead "\t.data_region " = true := by decide
    exact Statement.read_head hhead "jt32"
  | sehStart sym => exact Statement.read_head (by decide) sym
  | nonexecStack | functionType _ | objectType _ | cfiPersonality _ | sehHandler _ =>
    unfold render statement
    simp only [String.append_assoc]
    exact Statement.read_head (by decide) _
  | textSection | dataSection => rfl
  | subsections | cfiStart | cfiEnd | sehEndPrologue | sehEnd | regionEnd =>
    unfold render statement
    dsimp only
    decide

/-- A name brings no line feed. -/
theorem lineFeeds_of_isSymbolName {name : String} (h : name = "" ∨ IsSymbolName name) :
    Text.lineFeeds name = 0 := by
  rcases h with rfl | h
  · rfl
  · exact Text.lineFeeds_of_not_mem fun hmem => absurd (h.2.1 _ hmem) (by decide)

/-- A legible line is one line. -/
theorem lineFeed_not_mem_render (hp : p.IsUsual) (h : line.IsLegible p) :
    '\n' ∉ (line.render p).toList := by
  rw [← Text.lineFeeds_eq_zero_iff, lineFeeds_render hp]
  cases line with
  | banner unit => simpa [texts] using Text.lineFeeds_of_not_mem h
  | instruction operation operands =>
    obtain ⟨hoperation, hoperands⟩ := h
    refine List.sum_eq_zero_iff.mpr (List.forall_mem_map.mpr (List.forall_mem_cons.mpr ⟨?_, ?_⟩))
    · exact Text.lineFeeds_of_not_mem fun hmem => absurd (hoperation.1 _ hmem) (by decide)
    · exact fun text htext => Text.lineFeeds_of_not_mem (hoperands text htext)
  | exported _ | weakDefinition _ | weakReference _ | functionType _ | objectType _ | label _
  | cfiPersonality _ | sehStart _ | sehHandler _ =>
    simpa [texts] using lineFeeds_of_isSymbolName (.inr h)
  | tableEntry target table =>
    simp [texts, lineFeeds_of_isSymbolName h.1, lineFeeds_of_isSymbolName (.inr h.2)]
  | datum directive value =>
    obtain ⟨⟨size, hdirective⟩, hsym⟩ := h
    simp [texts, hp.lineFeeds_of_dataDirective? hdirective, lineFeeds_of_isSymbolName hsym]
  | _ => rfl

/-- Labels are found where the listing has them. -/
theorem label?_statement (hp : p.IsUsual) (h : line.IsLegible p) :
    (line.statement p).label? = line.label? := by
  have hsymbol {sym : String} (h : IsSymbolName sym) : (read sym.toList).label? = none :=
    Statement.label?_read_of_not_mem fun hmem => absurd (h.2.1 _ hmem) (by decide)
  cases line with
  | textSection =>
    change (read p.textSectionDirective.toList).label? = none
    rcases hp.enterText with hword | hword <;> rw [hword] <;>
      exact Statement.label?_read_of_not_mem (by decide)
  | dataSection =>
    change (read p.dataSectionDirective.toList).label? = none
    rcases hp.enterData with hword | hword <;> rw [hword] <;>
      exact Statement.label?_read_of_not_mem (by decide)
  | weakDefinition sym =>
    change (if p.weakDefDirective = "" then read sym.toList
      else directiveOf p.weakDefDirective sym).label? = none
    split
    · exact hsymbol h
    · rfl
  | weakReference sym =>
    change (if p.weakRefDirective = "" then read sym.toList
      else directiveOf p.weakRefDirective sym).label? = none
    split
    · exact hsymbol h
    · rfl
  | _ => rfl

/-- Instructions are found where the listing has them. -/
theorem instruction?_statement (hp : p.IsUsual) (h : line.HasDirective p) :
    (line.statement p).instruction? =
      line.instruction?.map fun parts => (instruction parts.1 parts.2).render p := by
  cases line with
  | textSection =>
    change (read p.textSectionDirective.toList).instruction? = none
    rcases hp.enterText with hword | hword <;> rw [hword] <;> decide
  | dataSection =>
    change (read p.dataSectionDirective.toList).instruction? = none
    rcases hp.enterData with hword | hword <;> rw [hword] <;> decide
  | weakDefinition sym =>
    rw [statement_weakDefinition h]
    rfl
  | weakReference sym =>
    rw [statement_weakReference h]
    rfl
  | _ => rfl

end Line

namespace Statement

variable {p : Profile} {lines : List Line}

/-- A text of legible lines is read line by line. Behind the last line feed stands an empty line. -/
theorem ofText_render (hp : p.IsUsual) (h : ∀ line ∈ lines, line.IsLegible p) :
    ofText (Listing.render p lines) = lines.map (Line.statement p) ++ [.remark] := by
  induction lines with
  | nil => rfl
  | cons line rest ih =>
    obtain ⟨hline, hrest⟩ := List.forall_mem_cons.mp h
    have htext : (Listing.render p (line :: rest)).toList =
        (line.render p).toList ++ '\n' :: (Listing.render p rest).toList := by
      simp [Listing.render, String.join_cons]
    have hone := Line.lineFeed_not_mem_render hp hline
    have hlater : ofText (Listing.render p rest) = _ := ih hrest
    unfold ofText at hlater ⊢
    rw [htext, List.splitOn_append_cons_self, List.splitOn_eq_singleton hone, List.map_append,
      hlater, List.map_singleton, Line.read_render hp hline]
    rfl

/-- The labels of a text of legible lines are those of the lines. -/
theorem filterMap_label?_ofText (hp : p.IsUsual) (h : ∀ line ∈ lines, line.IsLegible p) :
    (ofText (Listing.render p lines)).filterMap label? = lines.filterMap Line.label? := by
  rw [ofText_render hp h, List.filterMap_append, List.filterMap_map]
  have hsame : lines.filterMap (label? ∘ Line.statement p) = lines.filterMap Line.label? :=
    List.filterMap_congr fun line hline => Line.label?_statement hp (h line hline)
  rw [hsame]
  exact List.append_nil _

/-- The instructions of a text of legible lines are those of the lines, if there is a directive for
each weak symbol. -/
theorem filterMap_instruction?_ofText (hp : p.IsUsual) (h : ∀ line ∈ lines, line.IsLegible p)
    (hdirective : ∀ line ∈ lines, line.HasDirective p) :
    (ofText (Listing.render p lines)).filterMap instruction? =
      (lines.filterMap Line.instruction?).map fun parts =>
        (Line.instruction parts.1 parts.2).render p := by
  rw [ofText_render hp h, List.filterMap_append, List.filterMap_map, List.map_filterMap]
  have hsame := List.filterMap_congr (f := instruction? ∘ Line.statement p) fun line hline =>
    Line.instruction?_statement hp (hdirective line hline)
  rw [hsame]
  exact List.append_nil _

end Statement

end CodeEmission
