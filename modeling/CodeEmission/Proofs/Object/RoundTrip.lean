import CodeEmission.Proofs.Object.Container
import CodeEmission.Proofs.Object.Placement
import CodeEmission.Proofs.Object.Symbols
import CodeEmission.Proofs.Platform.Host

/-!
# Objects Written and Read

An object that was assembled is read off the bytes that it is written as, whatever follows them, and
no part of these bytes that lacks the end is taken for an object.

* `Object.lengths`: every number that the container of an object writes as a length.
* `ObjectFile.reads_container`: an object whose words have a meaning, and whose lengths fit a header,
  is read off what it is written as.
* `ObjectFile.stable_container`: what follows an object does not change how it is read.
* `Object.isSpelled_of_assemble`: the words of an assembled object have a meaning.
* `Object.ofBytes_packed`: the round trip, and the refusal of cut bytes.
-/

namespace CodeEmission

/-! ## What an object holds -/

/-- The numbers of bytes of texts. -/
def Pack.textLengths (texts : List String) : List Nat :=
  texts.map fun s => (Text.bytesOfText s).length

/-- The lengths that a relocation is written with. -/
def Reloc.lengths (r : Reloc) : List Nat :=
  Pack.textLengths [r.kind.text, r.symbol]

/-- The lengths that a section is written with. -/
def Section.lengths (s : Section) : List Nat :=
  Pack.textLengths [s.name] ++ [s.data.length, s.relocs.length] ++ s.relocs.flatMap Reloc.lengths

/-- The lengths that a symbol is written with. -/
def Symbol.lengths (s : Symbol) : List Nat :=
  Pack.textLengths [s.name, s.kind.text, s.binding.text, s.section_]

/-- The lengths that an unwind record is written with. -/
def UnwindRecord.lengths (u : UnwindRecord) : List Nat :=
  Pack.textLengths [u.func, u.kind, u.personality] ++ [u.personalitySyms.length] ++
    Pack.textLengths u.personalitySyms

/-- The lengths that an object is written with: the bytes of its texts and of its sections, and the
members of its lists. -/
def Object.lengths (o : Object) : List Nat :=
  Pack.textLengths [o.unit, o.format, o.arch] ++
    [o.sections.length, o.symbols.length, o.unwind.length] ++
    o.sections.flatMap Section.lengths ++ o.symbols.flatMap Symbol.lengths ++
    o.unwind.flatMap UnwindRecord.lengths

/-- The word for the kind of a relocation names the kind. -/
def Reloc.IsSpelled (r : Reloc) : Prop :=
  RelocKind.ofText r.kind.text = r.kind

/-- The words for the kind and the binding of a symbol name them. -/
def Symbol.IsSpelled (s : Symbol) : Prop :=
  SymbolKind.ofText s.kind.text = s.kind ∧ Binding.ofText s.binding.text = s.binding

/-- The words of an object name what they stand for. -/
def Object.IsSpelled (o : Object) : Prop :=
  (∀ s ∈ o.sections, ∀ r ∈ s.relocs, r.IsSpelled) ∧ ∀ s ∈ o.symbols, s.IsSpelled

namespace Unpack

/-! ## Entries of a file -/

/-- The entry that a section is written as. -/
def SectionEntry.ofSection (s : Section) : SectionEntry :=
  { name := Text.bytesOfText s.name, align := s.align, data := s.data, relocs := .ofList s.relocs }

@[simp]
theorem SectionEntry.toSection_ofSection (s : Section) : (ofSection s).toSection = s := by
  simp [toSection, ofSection]

/-- The entry that a symbol is written as. -/
def SymbolEntry.ofSymbol (s : Symbol) : SymbolEntry :=
  { name := Text.bytesOfText s.name, symbol := s }

theorem reads_reloc {r : Reloc} (hspelled : r.IsSpelled)
    (hlengths : ∀ n ∈ r.lengths, n < UInt32.size) : Reads (reloc {}) r (Pack.reloc r) := by
  obtain ⟨hkind, hsymbol, -⟩ := by
    simpa only [Reloc.lengths, Pack.textLengths, List.map_cons, List.map_nil, List.forall_mem_cons]
      using hlengths
  -- what the fields read, before words and numbers are seen to mean what was written
  have hread : Reads (reloc {})
      { offset := toWord32 r.offset.toNat, kind := .ofText r.kind.text, symbol := r.symbol
        addend := Int64.ofInt r.addend.toInt } (Pack.reloc r) := by
    rw [reloc, Pack.reloc]
    refine ReadsFields.reads_record ?_ (by decide +kernel) _
    exact .cons_of (reads_uint32 r.offset) <| .cons_of (reads_text hkind) <|
      .cons_of (reads_text hsymbol) <| .cons_of (reads_int64 r.addend) <| .nil _
  rwa [toWord32_toNat, hspelled, Int64.ofInt_toInt] at hread

theorem reads_section {s : Section} (hspelled : ∀ r ∈ s.relocs, r.IsSpelled)
    (hlengths : ∀ n ∈ s.lengths, n < UInt32.size) :
    Reads (section_ {}) (.ofSection s) (Pack.section_ s) := by
  simp only [Section.lengths, Pack.textLengths, List.map_cons, List.map_nil, List.forall_mem_append,
    List.forall_mem_cons, List.forall_mem_flatMap] at hlengths
  obtain ⟨⟨⟨hname, -⟩, hdata, hcount, -⟩, hrelocs⟩ := hlengths
  have hrelocs : Reads (slots {} reloc {}) (.ofList s.relocs) (Pack.list Pack.reloc s.relocs) := by
    have hslots := reads_slots id hcount fun r hr =>
      reads_reloc (hspelled r hr) (hrelocs r hr)
    rwa [List.map_id] at hslots
  have hread : Reads (section_ {})
      { name := Text.bytesOfText s.name, align := toWord32 s.align.toNat, data := s.data
        relocs := .ofList s.relocs } (Pack.section_ s) := by
    rw [section_, Pack.section_]
    refine ReadsFields.reads_record ?_ (by decide +kernel) _
    exact .cons_of (reads_name hname) <| .cons_of (reads_uint32 s.align) <|
      .cons_of (reads_binary hdata) <| .cons_within hrelocs <| .nil _
  rwa [toWord32_toNat] at hread

theorem reads_symbol {s : Symbol} (hspelled : s.IsSpelled)
    (hlengths : ∀ n ∈ s.lengths, n < UInt32.size) :
    Reads (symbol {}) (.ofSymbol s) (Pack.symbol s) := by
  simp only [Symbol.lengths, Pack.textLengths, List.map_cons, List.map_nil, List.forall_mem_cons]
    at hlengths
  obtain ⟨hname, hkind, hbinding, hsection, -⟩ := hlengths
  have hread : Reads (symbol {})
      { name := Text.bytesOfText s.name
        symbol :=
          { name := Text.textOfBytes (Text.bytesOfText s.name), kind := .ofText s.kind.text
            binding := .ofText s.binding.text, section_ := s.section_
            offset := toWord32 s.offset.toNat, size := toWord32 s.size.toNat } }
      (Pack.symbol s) := by
    rw [symbol, Pack.symbol]
    refine ReadsFields.reads_record ?_ (by decide +kernel) _
    exact .cons_of (reads_name hname) <| .cons_of (reads_text hkind) <|
      .cons_of (reads_text hbinding) <| .cons_of (reads_text hsection) <|
      .cons_of (reads_uint32 s.offset) <| .cons_of (reads_uint32 s.size) <| .nil _
  rwa [textOfBytes_bytesOfText, hspelled.1, hspelled.2, toWord32_toNat, toWord32_toNat] at hread

theorem reads_unwind {u : UnwindRecord} (hlengths : ∀ n ∈ u.lengths, n < UInt32.size) :
    Reads (unwind {}) u (Pack.unwind u) := by
  simp only [UnwindRecord.lengths, Pack.textLengths, List.map_cons, List.map_nil,
    List.forall_mem_append, List.forall_mem_cons, List.forall_mem_map] at hlengths
  obtain ⟨⟨⟨hfunc, hkind, hpersonality, -⟩, hcount, -⟩, hsyms⟩ := hlengths
  rw [unwind, Pack.unwind]
  refine ReadsFields.reads_record ?_ (by decide +kernel) _
  exact .cons_of (reads_text hfunc) <| .cons_of (reads_text hkind) <|
    .cons_of (reads_text hpersonality) <| .cons_within (reads_texts hcount hsyms) <| .nil _

/-! ## What follows a record -/

theorem stable_reloc (r : Reloc) : Stable (reloc r) := by
  refine stable_record ?_ _ _
  simp only [List.forall_mem_cons]
  exact ⟨.of stable_integer _ _, .of stable_text _ _, .of stable_text _ _, .of stable_integer _ _,
    nofun⟩

theorem stable_section (s : SectionEntry) : Stable (section_ s) := by
  refine stable_record ?_ _ _
  simp only [List.forall_mem_cons]
  exact ⟨.of stable_binary _ _, .of stable_integer _ _, .of stable_binary _ _,
    .within (stable_slots stable_reloc) _ _ _, nofun⟩

theorem stable_symbol (s : SymbolEntry) : Stable (symbol s) := by
  refine stable_record ?_ _ _
  simp only [List.forall_mem_cons]
  exact ⟨.of stable_binary _ _, .of stable_text _ _, .of stable_text _ _, .of stable_text _ _,
    .of stable_integer _ _, .of stable_integer _ _, nofun⟩

theorem stable_unwind (u : UnwindRecord) : Stable (unwind u) := by
  refine stable_record ?_ _ _
  simp only [List.forall_mem_cons]
  exact ⟨.of stable_text _ _, .of stable_text _ _, .of stable_text _ _,
    .within stable_texts _ _ _, nofun⟩

end Unpack

open Unpack

namespace ObjectFile

/-- The file that an object is written as. -/
def ofObject (o : Object) : ObjectFile :=
  { magic := Text.bytesOfText Object.magic, schema := Object.schema, unit := o.unit
    format := o.format, arch := o.arch, pointerSize := o.pointerSize
    sections := .ofList (o.sections.map .ofSection), symbols := .ofList (o.symbols.map .ofSymbol)
    unwind := .ofList o.unwind }

@[simp]
theorem object_ofObject (o : Object) : (ofObject o).object = o := by
  simp [object, ofObject, SymbolEntry.ofSymbol, Function.comp_def]

/-- Objects are taken off longer input alike. -/
theorem stable_container : Stable container := by
  refine stable_record ?_ _ _
  simp only [List.forall_mem_cons]
  exact ⟨.of stable_binary _ _, .of stable_integer _ _, .of stable_text _ _, .of stable_text _ _,
    .of stable_text _ _, .of stable_integer _ _, .within (stable_slots stable_section) _ _ _,
    .within (stable_slots stable_symbol) _ _ _, .within (stable_slots stable_unwind) _ _ _, nofun⟩

/-- An object is read off what it is written as. -/
theorem reads_container {o : Object} (hspelled : o.IsSpelled)
    (hlengths : ∀ n ∈ o.lengths, n < UInt32.size) :
    Reads container (.ofObject o) (Pack.object o) := by
  simp only [Object.lengths, Pack.textLengths, List.map_cons, List.map_nil, List.forall_mem_append,
    List.forall_mem_cons, List.forall_mem_flatMap] at hlengths
  obtain ⟨⟨⟨⟨⟨hunit, hformat, harch, -⟩, hsectionCount, hsymbolCount, hunwindCount, -⟩, hsections⟩,
    hsymbols⟩, hunwind⟩ := hlengths
  have hsections := reads_slots SectionEntry.ofSection hsectionCount fun s hs =>
    reads_section (hspelled.1 s hs) (hsections s hs)
  have hsymbols := reads_slots SymbolEntry.ofSymbol hsymbolCount fun s hs =>
    reads_symbol (hspelled.2 s hs) (hsymbols s hs)
  have hunwind := reads_slots id hunwindCount fun u hu => reads_unwind (hunwind u hu)
  rw [List.map_id] at hunwind
  -- the two numbers are cut to their widths, which changes neither
  have hread : Reads container
      { ofObject o with
        schema := ((Object.schema : Int) % UInt16.size).toNat
        pointerSize := UInt8.ofNat ((o.pointerSize.toNat : Int) % UInt8.size).toNat }
      (Pack.object o) := by
    rw [container, Pack.object]
    refine ReadsFields.reads_record ?_ (by decide +kernel) _
    exact .cons_of (reads_name (by decide +kernel)) <| .cons_of (reads_uint16 (by decide)) <|
      .cons_of (reads_text hunit) <| .cons_of (reads_text hformat) <|
      .cons_of (reads_text harch) <| .cons_of (reads_uint8 o.pointerSize) <|
      .cons_within hsections <| .cons_within hsymbols <| .cons_within hunwind <| .nil _
  have hsize : UInt8.ofNat ((o.pointerSize.toNat : Int) % UInt8.size).toNat = o.pointerSize := by
    rw [Int.emod_eq_of_lt (Int.natCast_nonneg _) (Int.ofNat_lt.mpr o.pointerSize.toNat_lt_size),
      Int.toNat_natCast, UInt8.ofNat_toNat]
  rwa [hsize] at hread

end ObjectFile

/-! ## Assembled objects -/

theorem Binding.ofText_text_ofLinkage (l : Linkage) :
    ofText (ofLinkage l).text = ofLinkage l := by
  cases l <;> rfl

/-- The words of the three sorts of symbols have a meaning. -/
theorem Symbol.isSpelled {p : Profile} {s : Symbol}
    (h : s.IsText p ∨ s.IsData p ∨ s.IsReference) : s.IsSpelled := by
  rw [IsSpelled]
  rcases h with ⟨-, ⟨hkind, l, hbinding⟩ | ⟨hkind, hbinding⟩⟩ | ⟨-, hkind, l, hbinding⟩ |
    ⟨-, hkind, hbinding⟩
  · rw [hkind, hbinding]
    exact ⟨rfl, Binding.ofText_text_ofLinkage l⟩
  · rw [hkind, hbinding]
    exact ⟨rfl, rfl⟩
  · rw [hkind, hbinding]
    exact ⟨rfl, Binding.ofText_text_ofLinkage l⟩
  · rw [hkind, hbinding]
    exact ⟨rfl, rfl⟩

/-- The words of a chunk's relocations name what they stand for. -/
def Chunk.IsSpelled (c : Chunk) : Prop :=
  ∀ r ∈ c.relocs, r.IsSpelled

namespace Chunk

theorem IsSpelled.append {a b : Chunk} (ha : a.IsSpelled) (hb : b.IsSpelled) :
    (a.append b).IsSpelled :=
  List.forall_mem_append.mpr ⟨ha, hb⟩

theorem isSpelled_of_concat {α ε : Type} {f : Nat → α → Except ε Chunk} {loc : Nat} {c : Chunk}
    {as : List α} (hpiece : ∀ loc a piece, f loc a = .ok piece → piece.IsSpelled)
    (h : concat f loc as = .ok c) : c.IsSpelled :=
  concat_induction (P := fun _ c => c.IsSpelled) (fun _ => nofun) hpiece (fun _ _ _ => .append) h

end Chunk

section Spelled

variable {p : Profile} {loc : Nat} {c : Chunk}

theorem isSpelled_instChunk {numbered : Inst × Nat} (h : instChunk p loc numbered = .ok c) :
    c.IsSpelled := by
  obtain ⟨inst, i⟩ := numbered
  obtain ⟨bytes, relocs, -, hrelocs, rfl⟩ := instChunk_eq_ok h
  unfold instRelocs at hrelocs
  split at hrelocs
  · rw [← Except.ok.inj hrelocs]
    nofun
  · split at hrelocs
    · cases hrelocs
    · obtain ⟨r, hr, rfl⟩ := map_eq_ok_iff.mp hrelocs
      refine List.forall_mem_singleton.mpr ?_
      unfold operandReloc at hr
      split at hr
      · cases hr
      · rw [← Except.ok.inj hr]
        split <;> rfl

theorem isSpelled_funcChunk {f : Func} (h : funcChunk p loc f = .ok c) : c.IsSpelled := by
  obtain ⟨fill, start, body, tables, -, -, -, -, hbody, htables, rfl⟩ := funcChunk_eq_ok h
  have hbody : body.IsSpelled := Chunk.isSpelled_of_concat (fun _ _ _ => isSpelled_instChunk) hbody
  have htables : tables.IsSpelled := by
    rw [Chunk.IsSpelled, relocs_of_tables htables]
    nofun
  have hopening : Chunk.IsSpelled (Chunk.append
      { bytes := fill, align := max 1 f.align.toInt.toNat }
      { symbols := [f.textSymbol p start body.bytes.length] }) := nofun
  have hunwind : Chunk.IsSpelled { unwind := f.unwindRecords } := nofun
  exact ((hopening.append hbody).append htables).append hunwind

theorem isSpelled_dataChunk {d : DataObject} (h : dataChunk p loc d = .ok c) : c.IsSpelled := by
  obtain ⟨fill, start, body, -, -, -, -, hbody, rfl⟩ := dataChunk_eq_ok h
  have hbody : body.IsSpelled := by
    refine Chunk.isSpelled_of_concat ?_ hbody
    rintro loc ⟨v, i⟩ piece hpiece
    rcases valueChunk_eq_ok hpiece with ⟨-, bytes, -, rfl⟩ | ⟨-, -, rfl⟩
    · nofun
    · refine List.forall_mem_singleton.mpr ?_
      show RelocKind.ofText (RelocKind.text (if v.size = 8 then .abs64 else .abs32)) = _
      split <;> rfl
  have hopening : Chunk.IsSpelled (Chunk.append
      { bytes := fill, align := max 1 d.align.toInt.toNat }
      { symbols := [d.dataSymbol p start body.bytes.length] }) := nofun
  exact hopening.append hbody

end Spelled

namespace Object

variable {p : Profile} {u : CodeUnit} {obj : Object}

/-- The words of an assembled object name what they stand for. -/
theorem isSpelled_of_assemble (h : assemble p u = .ok obj) : obj.IsSpelled := by
  refine ⟨?_, fun s hs => Symbol.isSpelled (symbols_of_assemble h hs)⟩
  obtain ⟨text, data, htext, hdata, rfl⟩ := assemble_eq_ok h
  intro s hs
  -- a section is there only when its list of entities is not empty
  have hsection : s = sectionOf p.textSection text ∨ s = sectionOf p.dataSection data := by
    rcases List.mem_append.mp hs with hs | hs <;> split at hs <;> simp_all
  rcases hsection with rfl | rfl
  · exact Chunk.isSpelled_of_concat (fun _ _ _ => isSpelled_funcChunk) htext
  · exact Chunk.isSpelled_of_concat (fun _ _ _ => isSpelled_dataChunk) hdata

/-- An assembled object whose lengths fit their headers is read off the bytes that it is written as,
whatever follows them. Of these bytes, nothing that lacks the end is an object. -/
theorem ofBytes_packed (h : assemble p u = .ok obj) (hlengths : ∀ n ∈ obj.lengths, n < UInt32.size) :
    (∀ tail, ofBytes (Pack.object obj ++ tail) = .ok obj) ∧
      ∀ front, front <+: Pack.object obj → front ≠ Pack.object obj →
        ofBytes front = .error .malformed := by
  have hreads := ObjectFile.reads_container (isSpelled_of_assemble h) hlengths
  constructor
  · intro tail
    have hfile : ObjectFile.ofBytes (Pack.object obj ++ tail) = .ok (.ofObject obj) := by
      simp only [ObjectFile.ofBytes, hreads tail, ObjectFile.ofObject, ne_eq, not_true_eq_false,
        if_false]
    rw [ofBytes, hfile, Except.map, ObjectFile.object_ofObject]
  · rintro front ⟨back, hwhole⟩ hne
    have hback : back ≠ [] := by
      rintro rfl
      exact hne (by rw [← hwhole, List.append_nil])
    have hnone : ObjectFile.container front = none :=
      ObjectFile.stable_container.eq_none_of_cut (hwhole ▸ hreads) hback
    rw [ofBytes, ObjectFile.ofBytes, hnone]
    rfl

/-- A routine that calls itself, with an unwind record, and forty words, the first of them the
routine's address. The name of the routine and the words are too long for the shortest headers. -/
def archived : CodeUnit :=
  { name := "archived"
    funcs := [{ name := "a_routine_whose_name_is_rather_long", linkage := .weak
                insts := [{ op := "call"
                            operands := [{ kind := .sym
                                           sym := "a_routine_whose_name_is_rather_long" }]
                            encoding := "e8 00 00 00 00" },
                  { op := "ret", encoding := "c3", label := "done" }]
                unwind := { kind := .cfi, personality := "__gxx_personality_v0"
                            personalitySyms := ["__gxx_personality_v0"] } }]
    data := [{ name := "words", linkage := .hidden, align := 8
               values := { size := 8, sym := "a_routine_whose_name_is_rather_long" } ::
                 List.replicate 39 { size := 8, int := -1 } }] }

/-- The object of the routine and the words is read back with a byte after it and refused without
its last byte. -/
theorem ofBytes_packed_archived :
    ∃ obj, assemble Profile.host archived = .ok obj ∧ (∀ n ∈ obj.lengths, n < UInt32.size) ∧
      ofBytes (Pack.object obj ++ [0xc0]) = .ok obj ∧
      ofBytes (Pack.object obj).dropLast = .error .malformed := by
  have hok : (assemble Profile.host archived).toOption.any
      (fun obj => decide (∀ n ∈ obj.lengths, n < UInt32.size)) = true := by
    decide +kernel
  cases hobj : assemble Profile.host archived with
  | error e =>
    rw [hobj] at hok
    cases hok
  | ok obj =>
    rw [hobj] at hok
    have hlengths : ∀ n ∈ obj.lengths, n < UInt32.size := of_decide_eq_true hok
    obtain ⟨hread, hcut⟩ := ofBytes_packed hobj hlengths
    refine ⟨obj, rfl, hlengths, hread [0xc0], ?_⟩
    refine hcut _ (List.dropLast_prefix _) fun heq => ?_
    have hlength := congrArg List.length heq
    rw [List.length_dropLast] at hlength
    have hsome : 0 < (Pack.object obj).length := Nat.zero_lt_succ _
    omega

end Object

end CodeEmission
