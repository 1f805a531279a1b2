import CodeEmission.Platform.Profile

/-!
# What All Profiles Have in Common

A profile is built by four steps, and most of its settings differ from platform to platform. Some do
not: `Profile.IsUsual` lists them. The first step gives a profile that has them and every later one
keeps them (`Profile.isUsual_of_ofBucket`).
-/

namespace CodeEmission.Profile

/-- The settings that are the same, or one of a few, on every platform. -/
structure IsUsual (p : Profile) : Prop where
  /-- Gaps between functions are filled with the one-byte no-operation. -/
  textFill : p.textFill = 0x90
  /-- What starts a comment. -/
  comment : p.comment = "#" ∨ p.comment = "##"
  /-- The mark of symbols that the linker sees, where there is one. -/
  globalMark : p.globalMark = "" ∨ p.globalMark = "_"
  /-- The mark of symbols that only the assembler sees. -/
  privateMark : p.privateMark = "L" ∨ p.privateMark = ".L"
  /-- The sections have one of two pairs of names. -/
  sections : (p.textSection = ".text" ∧ p.dataSection = ".data") ∨
    (p.textSection = "__TEXT,__text" ∧ p.dataSection = "__DATA,__data")
  /-- The directive that enters the section of functions. -/
  enterText : p.textSectionDirective = "\t.text" ∨
    p.textSectionDirective = "\t.section\t__TEXT,__text,regular,pure_instructions"
  /-- The directive that enters the section of data. -/
  enterData : p.dataSectionDirective = "\t.data" ∨
    p.dataSectionDirective = "\t.section\t__DATA,__data"
  /-- The section that marks the stack, where there is one. -/
  nonexecStack : p.nonexecStackSection = "" ∨ p.nonexecStackSection = ".note.GNU-stack"
  /-- There is one directive that exports symbols. -/
  globalDirective : p.globalDirective = "\t.globl\t"
  /-- The directive that makes a reference weak, where there is one. -/
  weakReference : p.weakRefDirective = "" ∨ p.weakRefDirective = "\t.weak\t" ∨
    p.weakRefDirective = "\t.weak_reference\t"
  /-- The directive that makes a definition weak, where there is one. -/
  weakDefinition : p.weakDefDirective = "" ∨ p.weakDefDirective = "\t.weak_definition\t"
  /-- The directive for one byte. -/
  data8 : p.data8Directive = "\t.byte\t"
  /-- The directive for two bytes. -/
  data16 : p.data16Directive = "\t.short\t"
  /-- The directive for four bytes. -/
  data32 : p.data32Directive = "\t.long\t"
  /-- The directive for eight bytes, where there is one. -/
  data64 : p.data64Directive = "\t.quad\t" ∨ p.data64Directive = ""
  /-- One directive counts bytes and the other powers of two. -/
  align : (p.alignDirective = "\t.align\t" ∧ p.alignInBytes = true) ∨
    (p.alignDirective = "\t.p2align\t" ∧ p.alignInBytes = false)

variable {b : Bucket} {c : Conventions} {p : Profile}

/-- The architecture sets the fill byte; all else is the default. -/
theorem isUsual_archStep (b : Bucket) (c : Conventions) :
    (archStep b c { bucket := b }).IsUsual where
  textFill := rfl
  comment := .inl rfl
  globalMark := .inl rfl
  privateMark := .inl rfl
  sections := .inl ⟨rfl, rfl⟩
  enterText := .inl rfl
  enterData := .inl rfl
  nonexecStack := .inl rfl
  globalDirective := rfl
  weakReference := .inl rfl
  weakDefinition := .inl rfl
  data8 := rfl
  data16 := rfl
  data32 := rfl
  data64 := .inl rfl
  align := .inl ⟨rfl, rfl⟩

/-- The object format may set marks of its own, name other sections, count alignments otherwise, bring
directives for weak symbols and drop one for data. -/
theorem IsUsual.formatStep (h : p.IsUsual) (b : Bucket) (c : Conventions) :
    (formatStep b c p).IsUsual := by
  unfold Profile.formatStep
  split
  · refine { h with
      comment := .inr rfl, globalMark := .inr rfl, privateMark := .inl rfl
      sections := .inr ⟨rfl, rfl⟩, enterText := .inr rfl, enterData := .inr rfl
      weakReference := .inr (.inr rfl), weakDefinition := .inr rfl, data64 := ?_
      align := .inr ⟨rfl, rfl⟩ }
    dsimp only
    split
    · exact h.data64
    · exact .inr rfl
  · exact { h with
      privateMark := .inr rfl, nonexecStack := .inr rfl, weakReference := .inr (.inl rfl) }
  · exact { h with globalMark := .inr rfl, privateMark := .inl rfl }
  · exact { h with }

/-- The operating system may set marks of its own, drop a directive for data and bring one for weak
symbols. -/
theorem IsUsual.osStep (h : p.IsUsual) (b : Bucket) : (osStep b p).IsUsual := by
  unfold Profile.osStep
  split
  · refine { h with data64 := ?_ }
    dsimp only
    split
    · exact .inr rfl
    · exact h.data64
  · split
    · exact { h with globalMark := .inl rfl, privateMark := .inr rfl }
    · exact h
  · refine { h with weakReference := .inr (.inl rfl), globalMark := ?_, privateMark := ?_ }
    · dsimp only
      split
      · exact .inl rfl
      · exact h.globalMark
    · dsimp only
      split
      · exact .inr rfl
      · exact h.privateMark
  · exact h
  · exact h

/-- The environment changes none of the usual settings. -/
theorem IsUsual.envStep (h : p.IsUsual) (b : Bucket) : (envStep b p).IsUsual := by
  unfold Profile.envStep
  split
  · exact { h with }
  · exact h

/-- Every profile has the usual settings. -/
theorem isUsual_of_ofBucket (h : ofBucket b c = .ok p) : p.IsUsual := by
  unfold ofBucket at h
  split at h
  · rw [← Except.ok.inj h]
    exact (((isUsual_archStep b c).formatStep b c).osStep b).envStep b
  · cases h

theorem IsUsual.textSection_ne_empty (h : p.IsUsual) : p.textSection ≠ "" := by
  rcases h.sections with ⟨htext, -⟩ | ⟨htext, -⟩ <;> rw [htext] <;> decide

theorem IsUsual.dataSection_ne_empty (h : p.IsUsual) : p.dataSection ≠ "" := by
  rcases h.sections with ⟨-, hdata⟩ | ⟨-, hdata⟩ <;> rw [hdata] <;> decide

theorem IsUsual.textSection_ne_dataSection (h : p.IsUsual) : p.textSection ≠ p.dataSection := by
  rcases h.sections with ⟨htext, hdata⟩ | ⟨htext, hdata⟩ <;> rw [htext, hdata] <;> decide

/-- The directive for a value follows from its size. -/
theorem IsUsual.directive_of_dataDirective? (h : p.IsUsual) {size : Int} {directive : String}
    (hdirective : p.dataDirective? size = some directive) :
    (size = 1 ∧ directive = "\t.byte\t") ∨ (size = 2 ∧ directive = "\t.short\t") ∨
      (size = 4 ∧ directive = "\t.long\t") ∨ (size = 8 ∧ directive = "\t.quad\t") := by
  -- one case for each width that has a directive, and the others have none
  by_cases h1 : size = 1
  · simp only [dataDirective?, h1, h.data8] at hdirective
    exact .inl ⟨h1, (Option.some.inj hdirective).symm⟩
  by_cases h2 : size = 2
  · simp only [dataDirective?, h2, h.data16] at hdirective
    exact .inr (.inl ⟨h2, (Option.some.inj hdirective).symm⟩)
  by_cases h4 : size = 4
  · simp only [dataDirective?, h4, h.data32] at hdirective
    exact .inr (.inr (.inl ⟨h4, (Option.some.inj hdirective).symm⟩))
  by_cases h8 : size = 8
  · rcases h.data64 with hquad | hnone
    · simp only [dataDirective?, h8, hquad] at hdirective
      exact .inr (.inr (.inr ⟨h8, (Option.some.inj hdirective).symm⟩))
    · simp [dataDirective?, h8, hnone] at hdirective
  · simp [dataDirective?, h1, h2, h4, h8] at hdirective

end CodeEmission.Profile
