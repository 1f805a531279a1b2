import CodeEmission.Proofs.Assembly.Legibility
import CodeEmission.Proofs.Mangle.Resolution
import CodeEmission.Proofs.Object.SymbolTable
import CodeEmission.Proofs.Pipeline.Standard
import CodeEmission.Proofs.Stage.Preservation
import Mathlib.Data.List.Forall2

/-!
# What the Listing and the Object Define and Export

A listing defines symbols by label lines and says by directives who sees them. An object has a symbol
table with bindings. Both follow the linkage of the functions and data objects, by tables of their
own: the profile has the directives, some of which a platform may lack, and `Binding.ofLinkage` has
the bindings.

* `Statement.export?`: what a statement says about who sees a symbol.
* `Symbol.AnnouncedBy`: the directives are those that the binding of the symbol asks for.
* `weakDirective_ne_empty_of_finished`: legalization lets no weak symbol pass where the platform has
  no directive for it.
* `writers_export_alike`: after a finished run of the standard stages over a legible unit, the labels of
  the assembly text are the defined symbols of the object, and each function and data symbol is announced
  as it is bound.

The text is what counts: an operation that reads as a directive is one, and then a symbol can be announced
that the object binds internally (`directive_as_operation_exports`).
-/

namespace CodeEmission

/-- A directive about who sees a symbol. -/
structure ExportDirective where
  /-- The symbol. -/
  symbol : String
  /-- Whether it becomes weak; otherwise it becomes global. -/
  isWeak : Bool
  deriving DecidableEq, Repr

/-- What a statement says about who sees a symbol. -/
def Statement.export? : Statement → Option ExportDirective
  | directive ".globl" sym => some ⟨sym, false⟩
  | directive ".weak" sym | directive ".weak_definition" sym | directive ".weak_reference" sym =>
    some ⟨sym, true⟩
  | _ => none

/-- Directives are those of a symbol: they name it, one is weak when the symbol is, and there are any
when others see it. -/
structure Symbol.AnnouncedBy (s : Symbol) (directives : List ExportDirective) : Prop where
  /-- They are about the symbol. -/
  named : ∀ d ∈ directives, d.symbol = s.name
  /-- A directive makes it weak exactly when it is bound weakly. -/
  weak : (∃ d ∈ directives, d.isWeak = true) ↔ s.binding = .weak
  /-- There is a directive exactly when it is bound globally or weakly. -/
  visible : directives ≠ [] ↔ s.binding = .global ∨ s.binding = .weak

/-- Whether a symbol is that of a function or a data object. -/
def Symbol.isEntity (s : Symbol) : Bool :=
  s.kind = .func || s.kind = .data

/-! ## The directives of a text -/

/-- Whether a line says who sees a symbol. -/
def Line.isAnnouncement : Line → Bool
  | exported _ | weakDefinition _ | weakReference _ => true
  | _ => false

/-- A directive of another word says nothing about who sees a symbol. -/
theorem Statement.export?_directiveOf {head : String}
    (h : headWord head ∉ [".globl", ".weak", ".weak_definition", ".weak_reference"])
    (argument : String) : (directiveOf head argument).export? = none := by
  simp only [List.mem_cons, List.not_mem_nil, or_false, not_or] at h
  unfold directiveOf export?
  generalize headWord head = word at h
  simp [h]

section Directives

variable {p : Profile} {lines : List Line}

/-- What is said about who sees a symbol comes from the lines that say it. -/
theorem Line.export?_statement (hp : p.IsUsual) {line : Line} (hlegible : line.IsLegible p)
    (h : line.isAnnouncement = false) : (line.statement p).export? = none := by
  cases line with
  | exported _ | weakDefinition _ | weakReference _ => cases h
  | textSection =>
    change (Statement.read p.textSectionDirective.toList).export? = none
    rcases hp.enterText with hword | hword <;> rw [hword] <;> decide
  | dataSection =>
    change (Statement.read p.dataSectionDirective.toList).export? = none
    rcases hp.enterData with hword | hword <;> rw [hword] <;> decide
  | align amount fill =>
    refine Statement.export?_directiveOf ?_ _
    rcases hp.align with ⟨hword, -⟩ | ⟨hword, -⟩ <;> rw [hword] <;> decide
  | tableEntry target table =>
    refine Statement.export?_directiveOf ?_ _
    rw [hp.data32]
    decide
  | datum directive value =>
    obtain ⟨⟨size, hdirective⟩, -⟩ := hlegible
    refine Statement.export?_directiveOf ?_ _
    rcases hp.directive_of_dataDirective? hdirective with
      ⟨-, hword⟩ | ⟨-, hword⟩ | ⟨-, hword⟩ | ⟨-, hword⟩ <;> rw [hword] <;> decide
  | _ => rfl

/-- The lines of a linkage announce a symbol that is bound as the linkage says, where weak linkage
comes with a directive for it. -/
theorem announcedBy_linkageLines (hp : p.IsUsual) {s : Symbol} {l : Linkage}
    (hname : Dialect.IsSymbolName s.name) (hbinding : s.binding = .ofLinkage l)
    (hweak : l = .weak → p.weakDirective ≠ "") :
    s.AnnouncedBy
      ((Listing.linkageLines p s.name l).filterMap fun line => (line.statement p).export?) := by
  -- a name is the argument of its directive as it stands
  have hdirective (head : String) : Statement.directiveOf head s.name =
      .directive (Statement.headWord head) s.name :=
    Statement.directiveOf_of_isPlainChar head hname.2.1.isPlainChar
  have hglobal : ((Line.exported s.name).statement p).export? = some ⟨s.name, false⟩ := by
    change (Statement.directiveOf p.globalDirective s.name).export? = _
    rw [hdirective, hp.globalDirective]
    rfl
  cases l with
  | global =>
    have hlines : (Listing.linkageLines p s.name .global).filterMap
        (fun line => (line.statement p).export?) = [⟨s.name, false⟩] := by
      simp [Listing.linkageLines, hglobal]
    rw [hlines]
    exact ⟨by simp, by simp [hbinding, Binding.ofLinkage], by simp [hbinding, Binding.ofLinkage]⟩
  | weak =>
    have hpresent := hweak rfl
    rcases hp.weakDefinition with hnone | hdefinition
    · -- no directive for definitions, so it is the one for references, and that one is there
      rw [Profile.weakDirective, if_pos hnone] at hpresent
      have hreference : ((Line.weakReference s.name).statement p).export? = some ⟨s.name, true⟩ := by
        rw [Line.statement_weakReference hpresent, hdirective]
        rcases hp.weakReference.resolve_left hpresent with hweak | hweak
        · rw [hweak]
          rfl
        · rw [hweak]
          rfl
      have hlines : (Listing.linkageLines p s.name .weak).filterMap
          (fun line => (line.statement p).export?) = [⟨s.name, true⟩] := by
        simp [Listing.linkageLines, hnone, hreference]
      rw [hlines]
      exact ⟨by simp, by simp [hbinding, Binding.ofLinkage], by simp [hbinding, Binding.ofLinkage]⟩
    · have hdefined : ((Line.weakDefinition s.name).statement p).export? = some ⟨s.name, true⟩ := by
        have hsome : p.weakDefDirective ≠ "" := by simp [hdefinition]
        rw [Line.statement_weakDefinition hsome, hdirective, hdefinition]
        rfl
      have hlines : (Listing.linkageLines p s.name .weak).filterMap
          (fun line => (line.statement p).export?) = [⟨s.name, false⟩, ⟨s.name, true⟩] := by
        simp [Listing.linkageLines, hdefinition, hglobal, hdefined]
      rw [hlines]
      exact ⟨by simp, by simp [hbinding, Binding.ofLinkage], by simp [hbinding, Binding.ofLinkage]⟩
  | internal | hidden | other text =>
    -- no lines, and a symbol that nobody else sees
    have hinternal : s.binding = .internal := hbinding
    show s.AnnouncedBy []
    exact ⟨by simp, by simp [hinternal], by simp [hinternal]⟩

/-- The directives of an entity. -/
def Entity.exports (p : Profile) (e : Entity) : List ExportDirective :=
  (Listing.linkageLines p e.emittedName e.linkage).filterMap fun line => (line.statement p).export?

/-- Of the lines of an entity those that say who sees a symbol are the lines of its linkage. -/
theorem Listing.filter_isAnnouncement {sym : String} {l : Linkage}
    (h : lines.filter Line.isLinkage = linkageLines p sym l) :
    lines.filter Line.isAnnouncement = linkageLines p sym l := by
  have hkept : ∀ line ∈ linkageLines p sym l, line.isAnnouncement = true := by
    intro line hline
    rcases mem_linkageLines hline with rfl | rfl | rfl <;> rfl
  rw [← List.filter_eq_self.mpr hkept, ← h, List.filter_filter]
  refine List.filter_congr fun line _ => ?_
  cases line <;> rfl

/-- Who sees a symbol is said by the lines of the linkages, in order. -/
theorem Listing.filter_isAnnouncement_ofUnit {u : CodeUnit} (h : ofUnit p u = .ok lines) :
    lines.filter Line.isAnnouncement =
      u.entities.flatMap fun e => linkageLines p e.emittedName e.linkage := by
  obtain ⟨funcs, data, hfuncs, hdata, rfl⟩ := ofUnit_eq_ok h
  -- what the header, the footer and the section lines print is for no symbol
  have hheader : (header p u).filter Line.isAnnouncement = [] := by
    unfold header
    split <;> split <;> rfl
  have hfooter : (footer p).filter Line.isAnnouncement = [] := by
    unfold footer
    split <;> split <;> rfl
  have htextSection : (if u.funcs.isEmpty then [] else [Line.textSection]).filter
      Line.isAnnouncement = [] := by
    split <;> rfl
  have hdataSection : (if u.data.isEmpty then [] else [Line.dataSection]).filter
      Line.isAnnouncement = [] := by
    split <;> rfl
  have hfuncLines := flatten_of_mapM (φ := List.filter Line.isAnnouncement) rfl List.filter_append
    (fun f _ hf => filter_isAnnouncement (filter_funcLines hf).2) hfuncs
  have hdataLines := flatten_of_mapM (φ := List.filter Line.isAnnouncement) rfl List.filter_append
    (fun d _ hd => filter_isAnnouncement (filter_dataLines hd).2) hdata
  simp only [List.filter_append, hheader, hfooter, htextSection, hdataSection, hfuncLines,
    hdataLines, List.nil_append, List.append_nil, CodeUnit.entities, List.flatMap_append,
    List.flatMap_map]
  rfl

/-- A line for a weak symbol has a directive if the platform does. -/
theorem Listing.hasDirective_linkageLines {sym : String} {l : Linkage}
    (hweak : l = .weak → p.weakDirective ≠ "") :
    ∀ line ∈ linkageLines p sym l, line.HasDirective p := by
  unfold linkageLines
  split
  · exact List.forall_mem_singleton.mpr trivial
  · have hpresent := hweak rfl
    split
    next hnone =>
      rw [Profile.weakDirective, if_pos hnone] at hpresent
      exact List.forall_mem_singleton.mpr hpresent
    next hsome => exact List.forall_mem_cons.mpr ⟨trivial, List.forall_mem_singleton.mpr hsome⟩
  · exact nofun

/-- In a listing the lines for weak symbols have a directive if the platform does. -/
theorem Listing.hasDirective_of_ofUnit {u : CodeUnit}
    (hweak : ∀ e ∈ u.entities, e.linkage = .weak → p.weakDirective ≠ "")
    (h : ofUnit p u = .ok lines) : ∀ line ∈ lines, line.HasDirective p := by
  intro line hline
  cases hannounces : line.isAnnouncement with
  | false => cases line <;> trivial
  | true =>
    have hmem : line ∈ lines.filter Line.isAnnouncement := List.mem_filter.mpr ⟨hline, hannounces⟩
    rw [filter_isAnnouncement_ofUnit h] at hmem
    obtain ⟨e, he, hline⟩ := List.mem_flatMap.mp hmem
    exact hasDirective_linkageLines (hweak e he) line hline

/-- The directives of the text of a listing are those of the functions and data objects, in order. -/
theorem Statement.filterMap_export?_ofText {u : CodeUnit} (hp : p.IsUsual)
    (hlegible : ∀ line ∈ lines, line.IsLegible p) (h : Listing.ofUnit p u = .ok lines) :
    (ofText (Listing.render p lines)).filterMap export? = u.entities.flatMap (Entity.exports p) := by
  have hkept : lines.filterMap (fun line => (line.statement p).export?) =
      (lines.filter Line.isAnnouncement).filterMap fun line => (line.statement p).export? := by
    rw [List.filterMap_filter]
    refine List.filterMap_congr fun line hline => ?_
    cases hannounces : line.isAnnouncement with
    | true => rfl
    | false => exact Line.export?_statement hp (hlegible line hline) hannounces
  have htext : (ofText (Listing.render p lines)).filterMap export? =
      lines.filterMap fun line => (line.statement p).export? := by
    rw [ofText_render hp hlegible, List.filterMap_append, List.filterMap_map]
    exact List.append_nil _
  rw [htext, hkept, Listing.filter_isAnnouncement_ofUnit h, List.filterMap_flatMap]
  rfl

end Directives

/-! ## The symbols of an object -/

section Symbols

variable {p : Profile} {loc : Nat} {c : Chunk}

/-- The names and bindings of the functions and data objects among symbols. -/
def boundNames (symbols : List Symbol) : List (String × Binding) :=
  (symbols.filter Symbol.isEntity).map fun s => (s.name, s.binding)

/-- The name of an entity and how it is bound. -/
def Entity.boundName (e : Entity) : String × Binding :=
  (e.emittedName, .ofLinkage e.linkage)

theorem boundNames_append (front back : List Symbol) :
    boundNames (front ++ back) = boundNames front ++ boundNames back := by
  simp [boundNames]

theorem boundNames_eq_nil {symbols : List Symbol} (h : ∀ s ∈ symbols, s.isEntity = false) :
    boundNames symbols = [] := by
  have hnone : symbols.filter Symbol.isEntity = [] :=
    List.filter_eq_nil_iff.mpr fun s hs => Bool.eq_false_iff.mp (h s hs)
  rw [boundNames, hnone]
  rfl

theorem Symbol.IsLabel.not_isEntity {s : Symbol} (h : s.IsLabel p) : s.isEntity = false := by
  simp [Symbol.isEntity, h.2.1]

/-- A function has one symbol that is no label, its own. -/
theorem boundNames_of_funcChunk {f : Func} (h : funcChunk p loc f = .ok c) :
    boundNames c.symbols = [(Entity.func f).boundName] := by
  obtain ⟨fill, start, body, tables, -, -, -, -, hbody, htables, rfl⟩ := funcChunk_eq_ok h
  have hlabels : boundNames body.symbols = [] := boundNames_eq_nil fun s hs =>
    (Chunk.allSymbols_of_concat (fun _ _ _ => isLabel_of_instChunk) hbody s hs).not_isEntity
  have htableLabels : boundNames tables.symbols = [] := boundNames_eq_nil fun s hs =>
    (Chunk.allSymbols_of_concat (fun _ _ _ => isLabel_of_tableChunk) htables s hs).not_isEntity
  simp only [Chunk.symbols_append, boundNames_append, hlabels, htableLabels]
  rfl

theorem boundNames_of_dataChunk {d : DataObject} (h : dataChunk p loc d = .ok c) :
    boundNames c.symbols = [(Entity.data d).boundName] := by
  obtain ⟨fill, start, body, -, -, -, -, hbody, rfl⟩ := dataChunk_eq_ok h
  simp only [Chunk.symbols_append, symbols_of_values hbody]
  rfl

/-- The function and data symbols of an object are those of the entities, in order. -/
theorem Object.boundNames_symbols {u : CodeUnit} {obj : Object} (h : assemble p u = .ok obj) :
    boundNames obj.symbols = u.entities.map Entity.boundName := by
  obtain ⟨text, data, htext, hdata, rfl⟩ := assemble_eq_ok h
  have hfuncs : boundNames text.symbols = u.funcs.flatMap fun f => [(Entity.func f).boundName] :=
    Chunk.flatMap_of_concat (f := funcChunk p) (fun c => boundNames c.symbols) rfl
      (fun _ _ => boundNames_append _ _) (fun _ _ _ => boundNames_of_funcChunk) htext
  have hdatas : boundNames data.symbols = u.data.flatMap fun d => [(Entity.data d).boundName] :=
    Chunk.flatMap_of_concat (f := dataChunk p) (fun c => boundNames c.symbols) rfl
      (fun _ _ => boundNames_append _ _) (fun _ _ _ => boundNames_of_dataChunk) hdata
  have hreferences : ∀ refs, boundNames
      (undefinedSymbols (text.symbols ++ data.symbols) refs) = [] := by
    refine fun refs => boundNames_eq_nil fun s hs => ?_
    obtain ⟨-, hkind, -⟩ := isReference_of_mem_undefinedSymbols s hs
    simp [Symbol.isEntity, hkind]
  rw [boundNames_append, boundNames_append, hfuncs, hdatas, hreferences, List.append_nil,
    CodeUnit.entities, List.map_append, List.map_map, List.map_map, ← List.map_eq_flatMap,
    ← List.map_eq_flatMap]
  rfl

end Symbols

/-! ## Weak linkage after the stages -/

section Finished

variable {p : Profile} {o : Options} {u : CodeUnit}

/-- The stages change no linkage. -/
theorem map_linkage_standardResult :
    (standardResult p u).entities.map Entity.linkage = u.entities.map Entity.linkage := by
  simp only [CodeUnit.entities, standardResult, afterMangling, UnwindStage.run, Layout.run,
    Mangle.mangled, Legalize.run, List.map_append, List.map_map]
  refine congrArg₂ (· ++ ·) rfl (List.map_congr_left fun d _ => ?_)
  exact Legalize.linkage_expressible d

/-- Where legalization refuses nothing, weak symbols have a directive. -/
theorem weakDirective_ne_empty_of_legal (h : Legalize.faults p u = []) {e : Entity}
    (he : e ∈ u.entities) (hweak : e.linkage = .weak) : p.weakDirective ≠ "" := by
  simp only [Legalize.faults, List.append_eq_nil_iff, List.flatMap_eq_nil_iff,
    Option.toList_eq_nil_iff] at h
  obtain ⟨hfuncs, hdata⟩ := h
  intro hnone
  rcases List.mem_append.mp he with he | he
  · obtain ⟨f, hf, rfl⟩ := List.mem_map.mp he
    have hlegal := (hfuncs f hf).1
    rw [weakFault?, if_pos ⟨hweak, hnone⟩] at hlegal
    cases hlegal
  · obtain ⟨d, hd, rfl⟩ := List.mem_map.mp he
    have hlegal := hdata d hd
    rw [weakFault?, if_pos ⟨hweak, hnone⟩] at hlegal
    cases hlegal

/-- A weak symbol in a unit that went through the stages has a directive. -/
theorem weakDirective_ne_empty_of_finished
    (h : (runStages p o Stage.standard u).ending = .finished) {e : Entity}
    (he : e ∈ (runStages p o Stage.standard u).unit.entities) (hweak : e.linkage = .weak) :
    p.weakDirective ≠ "" := by
  obtain ⟨hunit, hlegal⟩ := unit_of_finished h
  -- legalization saw the unit as it came, and no stage changes a linkage
  have hmem : e.linkage ∈ u.entities.map Entity.linkage := by
    rw [← map_linkage_standardResult, ← hunit]
    exact List.mem_map_of_mem he
  obtain ⟨source, hsource, hsame⟩ := List.mem_map.mp hmem
  exact weakDirective_ne_empty_of_legal hlegal hsource (hsame.trans hweak)

/-- In the listing of a unit that went through the stages the lines for weak symbols have a
directive. -/
theorem hasDirective_of_finished (h : (runStages p o Stage.standard u).ending = .finished)
    {lines : List Line}
    (hlines : Listing.ofUnit p (runStages p o Stage.standard u).unit = .ok lines) :
    ∀ line ∈ lines, line.HasDirective p :=
  Listing.hasDirective_of_ofUnit (fun _ => weakDirective_ne_empty_of_finished h) hlines

/-- A unit defines the symbols of its functions and data objects. -/
theorem CodeUnit.emittedName_mem_definedNames {u : CodeUnit} {e : Entity} (h : e ∈ u.entities) :
    e.emittedName ∈ u.definedNames := by
  rcases List.mem_append.mp h with h | h
  · obtain ⟨f, hf, rfl⟩ := List.mem_map.mp h
    exact List.mem_append_left _ (List.mem_flatMap.mpr ⟨f, hf, List.mem_cons_self⟩)
  · obtain ⟨d, hd, rfl⟩ := List.mem_map.mp h
    exact List.mem_append_right _ (List.mem_map_of_mem hd)

/-- After a finished run of the standard stages, checked or not, a legible unit that has both an
assembly text and an object has the same symbols in both. The labels of the text are the names of the
object's defined symbols, in order. The directives about who sees a symbol fall into one block for each
function and data symbol of the object, in order, and each block announces its symbol as it is
bound. -/
theorem writers_export_alike {b : Bucket} {c : Conventions} {text : String} {obj : Object}
    (hp : Profile.ofBucket b c = .ok p)
    (hrun : (runStages p o Stage.standard u).ending = .finished)
    (hlegible : (runStages p o Stage.standard u).unit.IsLegible p.dialect)
    (htext : assemblyText p (runStages p o Stage.standard u).unit = .ok text)
    (hobj : Object.assemble p (runStages p o Stage.standard u).unit = .ok obj) :
    ∃ blocks,
      (Statement.ofText text).filterMap Statement.label? =
        (obj.symbols.filter Symbol.isDefined).map Symbol.name ∧
      (Statement.ofText text).filterMap Statement.export? = blocks.flatten ∧
      List.Forall₂ (fun block s => s.AnnouncedBy block) blocks
        (obj.symbols.filter Symbol.isEntity) := by
  have husual := Profile.isUsual_of_ofBucket hp
  have hweak := fun e he => weakDirective_ne_empty_of_finished (e := e) hrun he
  -- all else holds of any legible unit that both writers take
  generalize (runStages p o Stage.standard u).unit = m at *
  obtain ⟨lines, hlines, rfl⟩ := map_eq_ok_iff.mp htext
  have hlegibleLines := Listing.isLegible_of_ofUnit hlegible hlines
  refine ⟨m.entities.map (Entity.exports p), ?_, ?_, ?_⟩
  · rw [Statement.filterMap_label?_ofText husual hlegibleLines, Listing.filterMap_label? hlines,
      Object.map_name_filter_isDefined husual hobj]
  · rw [Statement.filterMap_export?_ofText husual hlegibleLines hlines, List.flatMap]
  · -- entities and symbols stand in the same order, with the same names and bindings
    have hsame : List.Forall₂ (fun e s => Entity.boundName e = (s.name, s.binding)) m.entities
        (obj.symbols.filter Symbol.isEntity) := by
      refine List.forall₂_map_left_iff.mp (List.forall₂_map_right_iff.mp ?_)
      rw [List.forall₂_eq_eq_eq]
      exact (Object.boundNames_symbols hobj).symm
    have hentity : ∀ e ∈ m.entities, Dialect.IsSymbolName e.emittedName ∧
        (e.linkage = .weak → p.weakDirective ≠ "") := fun e he =>
      ⟨hlegible.defined _ (CodeUnit.emittedName_mem_definedNames he), hweak e he⟩
    rw [List.forall₂_map_left_iff]
    refine ((List.forall₂_and_left _ _).mpr ⟨hentity, hsame⟩).imp ?_
    rintro e s ⟨⟨hname, hdirective⟩, hbound⟩
    obtain ⟨hsymbol, hbinding⟩ := Prod.mk.inj hbound
    rw [hsymbol] at hname
    rw [Entity.exports, hsymbol]
    exact announcedBy_linkageLines husual hname hbinding.symm hdirective

end Finished

/-- A unit with an entity of every linkage, a label and a jump table. -/
def mixedLinkage : CodeUnit :=
  { name := "mixed"
    funcs := [{ name := "main", linkage := .global
                insts := [{ op := "nop", encoding := "90", label := "loop" },
                  { op := "ret", encoding := "c3" }]
                jumpTables := [{ label := "table", targets := ["loop"] }] },
      { name := "helper", linkage := .internal, insts := [{ op := "ret", encoding := "c3" }] }]
    data := [{ name := "fallback", linkage := .weak, values := [{ size := 4, int := 1 }] },
      { name := "secret", linkage := .hidden, values := [{ size := 8, sym := "fallback" }] }] }

/-- The unchecked run of the standard stages over it for the host. -/
def mixedRun : StageRun :=
  runStages Profile.host { verify := false } Stage.standard mixedLinkage

/-- The function that others see is exported and the datum that gives way is weak, in the text as in
the object. Nothing is said of the other two, nor of labels. -/
theorem mixed_linkage_exported_alike :
    ∃ text blocks obj, Profile.ofBucket Triple.host.bucket {} = .ok Profile.host ∧
      mixedRun.ending = .finished ∧ mixedRun.unit.IsLegible Profile.host.dialect ∧
      assemblyText Profile.host mixedRun.unit = .ok text ∧
      Object.assemble Profile.host mixedRun.unit = .ok obj ∧
      (Statement.ofText text).filterMap Statement.label? =
        ["main", ".Lmain_loop", ".Lmain_table", "helper", "fallback", ".Lsecret"] ∧
      (Statement.ofText text).filterMap Statement.export? = blocks.flatten ∧
      blocks.flatten = [⟨"main", false⟩, ⟨"fallback", true⟩] ∧
      List.Forall₂ (fun block s => s.AnnouncedBy block) blocks
        (obj.symbols.filter Symbol.isEntity) ∧
      boundNames obj.symbols = [("main", .global), ("helper", .internal), ("fallback", .weak),
        (".Lsecret", .internal)] := by
  have hrun : mixedRun.ending = .finished := by decide +kernel
  have hlegible : mixedRun.unit.IsLegible Profile.host.dialect := by decide +kernel
  have hlisted : (Listing.ofUnit Profile.host mixedRun.unit).toOption.isSome := by decide +kernel
  have hannounced : mixedRun.unit.entities.flatMap (Entity.exports Profile.host) =
      [⟨"main", false⟩, ⟨"fallback", true⟩] := by
    decide +kernel
  have hnames : ((Object.assemble Profile.host mixedRun.unit).toOption.map fun obj =>
      ((obj.symbols.filter Symbol.isDefined).map Symbol.name, boundNames obj.symbols)) =
        some (["main", ".Lmain_loop", ".Lmain_table", "helper", "fallback", ".Lsecret"],
          [("main", .global), ("helper", .internal), ("fallback", .weak),
            (".Lsecret", .internal)]) := by
    decide +kernel
  cases hlines : Listing.ofUnit Profile.host mixedRun.unit with
  | error e =>
    rw [hlines] at hlisted
    cases hlisted
  | ok lines =>
    cases hobj : Object.assemble Profile.host mixedRun.unit with
    | error e =>
      rw [hobj] at hnames
      cases hnames
    | ok obj =>
      rw [hobj] at hnames
      obtain ⟨hdefined, hbound⟩ := Prod.mk.inj (Option.some.inj hnames)
      have htext : assemblyText Profile.host mixedRun.unit =
          .ok (Listing.render Profile.host lines) := by
        rw [assemblyText, hlines]
        rfl
      -- the directives of the text are those of the entities
      have hread := Statement.filterMap_export?_ofText
        (Profile.isUsual_of_ofBucket Profile.ofTriple_host)
        (Listing.isLegible_of_ofUnit hlegible hlines) hlines
      obtain ⟨blocks, hlabels, hexports, hblocks⟩ :=
        writers_export_alike Profile.ofTriple_host hrun hlegible htext hobj
      exact ⟨_, blocks, obj, Profile.ofTriple_host, hrun, hlegible, htext, rfl,
        hlabels.trans hdefined, hexports, hexports.symm.trans (hread.trans hannounced), hblocks,
        hbound⟩

/-- A function that nobody else sees, with an operation that is a directive of the assembler. -/
def exportingOperation : CodeUnit :=
  { name := "unit"
    funcs := [{ name := "f", linkage := .internal
                insts := [{ op := ".globl", operands := [{ kind := .sym, sym := "f" }]
                            encoding := "e8 00 00 00 00" }, { op := "ret", encoding := "c3" }] }] }

/-- The checked run of the standard stages over it for the host. -/
def exportingRun : StageRun :=
  runStages Profile.host { verify := true } Stage.standard exportingOperation

/-- A unit in source form that passes all checks and goes through the stages. Its text makes the
function global, and its object binds it internally. -/
theorem directive_as_operation_exports :
    exportingOperation.IsSource ∧ exportingRun.ending = .finished ∧
      (assemblyText Profile.host exportingRun.unit).toOption.map
          (fun text => (Statement.ofText text).filterMap Statement.export?) = some [⟨"f", false⟩] ∧
      (Object.assemble Profile.host exportingRun.unit).toOption.map
          (fun obj => boundNames obj.symbols) = some [("f", .internal)] := by
  decide +kernel

end CodeEmission
