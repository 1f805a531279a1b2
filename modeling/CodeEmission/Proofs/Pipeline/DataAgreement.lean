import CodeEmission.Proofs.Assembly.DataImage
import CodeEmission.Proofs.Object.Symbols
import CodeEmission.Proofs.Pipeline.Exports
import CodeEmission.Proofs.Stage.Preservation

/-!
# The Data of the Assembly Text and of the Object

The data objects of a unit are printed as directives and also assembled as bytes. Read as an assembler
reads it, the data part of the text is the section of data of the object: it has the same bytes, the same
symbols at the same places, and the same fields for the linker.

The assembler takes values of eight bytes everywhere, and some platforms have no directive for them.
There the unit has no such values left after the stages, so that the text exists
(`dataDirective?_of_standardResult`).

* `Object.dataImage`: what an object holds for its data objects.
* `data_part_denotes_section`: after a finished run of the standard stages with checks over a legible
  unit, the data part of the assembly text stands for what the object holds.

A value is printed as its symbol, and a symbol that looks like a number is read as one
(`digits_denote_number`).
-/

namespace CodeEmission

/-- What an object holds for the data objects: the bytes and relocations of their section, and their
symbols. An object without the section holds nothing. -/
def Object.dataImage (p : Profile) (obj : Object) : DataImage :=
  let contents := (obj.section? p.dataSection).getD {}
  { bytes := contents.data
    symbols := (obj.symbols.filter fun s => s.kind = .data).map Symbol.placed
    fields := contents.relocs.map Reloc.field }

/-- The symbols of data objects are those of their chunk. -/
theorem Object.filter_kind_data {p : Profile} {text data : Chunk} {refs : List String}
    (htext : text.AllSymbols (Symbol.IsText p)) (hdata : data.AllSymbols (Symbol.IsData p)) :
    (text.symbols ++ data.symbols ++
        undefinedSymbols (text.symbols ++ data.symbols) refs).filter (fun s => s.kind = .data) =
      data.symbols := by
  have hfuncs : text.symbols.filter (fun s => s.kind = .data) = [] := by
    refine List.filter_eq_nil_iff.mpr fun s hs => ?_
    rcases htext s hs with ⟨-, ⟨hkind, -⟩ | ⟨hkind, -⟩⟩ <;> simp [hkind]
  have hreferences : (undefinedSymbols (text.symbols ++ data.symbols) refs).filter
      (fun s => s.kind = .data) = [] := by
    refine List.filter_eq_nil_iff.mpr fun s hs => ?_
    obtain ⟨-, hkind, -⟩ := isReference_of_mem_undefinedSymbols s hs
    simp [hkind]
  have hall : data.symbols.filter (fun s => s.kind = .data) = data.symbols := by
    refine List.filter_eq_self.mpr fun s hs => ?_
    obtain ⟨-, hkind, -⟩ := hdata s hs
    simp [hkind]
  rw [List.filter_append, List.filter_append, hfuncs, hreferences, hall, List.nil_append,
    List.append_nil]

/-- An object holds what is assembled for its data objects. -/
theorem Object.dataImage_of_assemble {p : Profile} (hp : p.IsUsual) {u : CodeUnit} {obj : Object}
    (h : assemble p u = .ok obj) :
    ∃ c, Chunk.concat (dataChunk p) 0 u.data = .ok c ∧ obj.dataImage p = DataImage.add {} c := by
  obtain ⟨text, data, htext, hdata, hobj⟩ := assemble_eq_ok h
  have hsymbols : obj.symbols.filter (fun s => s.kind = .data) = data.symbols := by
    rw [hobj]
    exact filter_kind_data (Chunk.allSymbols_of_concat (fun _ _ _ => isText_of_funcChunk) htext)
      (Chunk.allSymbols_of_concat (fun _ _ _ => isData_of_dataChunk) hdata)
  refine ⟨data, hdata, ?_⟩
  rw [dataImage, hsymbols]
  cases hlist : u.data with
  | nil =>
    -- there is no section of data then, and nothing to put into it
    have hnone : obj.section? p.dataSection = none := by
      rw [hobj, section?, List.find?_eq_none]
      intro s hs
      simp only [hlist, List.isEmpty_nil, if_true, List.append_nil] at hs
      split at hs
      · cases hs
      · rw [List.mem_singleton.mp hs]
        simp [sectionOf, hp.textSection_ne_dataSection]
    rw [hlist] at hdata
    rw [hnone, Chunk.concat_nil_eq_ok_iff.mp hdata]
    rfl
  | cons d later =>
    have hsome : u.data ≠ [] := by simp [hlist]
    obtain ⟨data', hdata', hsection⟩ := section?_dataSection h hp.textSection_ne_dataSection hsome
    obtain rfl : data = data' := Except.ok.inj (hdata.symm.trans hdata')
    rw [hsection]
    rfl

/-! ## Directives for the values -/

/-- Without a directive for eight bytes, no value has eight bytes after the stages. -/
theorem size_of_standardResult {p : Profile} {u : CodeUnit} (hp : p.hasData64 = false)
    {d : DataObject} (hd : d ∈ (standardResult p u).data) {v : Datum} (hv : v ∈ d.values) :
    v.size ≠ 8 := by
  -- the stages after the first rename the symbols of values and keep their sizes
  obtain ⟨mangled, hmangled, rfl⟩ := List.mem_map.mp hd
  obtain ⟨legal, hlegal, rfl⟩ := List.mem_map.mp hmangled
  obtain ⟨w, hw, rfl⟩ := List.mem_map.mp hv
  obtain ⟨source, -, rfl⟩ := List.mem_map.mp hlegal
  have hsize : ∀ defs, (Mangle.datum p defs w).size = w.size := by
    intro defs
    unfold Mangle.datum
    split <;> rfl
  rw [Legalize.expressible, if_neg (by simp [hp])] at hw
  rw [hsize]
  exact size_ne_eight_of_mem_splitQuads hw

/-- After the stages there is a directive for every value of a unit that passes the checks. -/
theorem dataDirective?_of_standardResult {p : Profile} (hp : p.IsUsual) {u : CodeUnit}
    (hverify : verify (some (standardResult p u)) = .ok ()) {d : DataObject}
    (hd : d ∈ (standardResult p u).data) {v : Datum} (hv : v ∈ d.values) :
    (p.dataDirective? v.size.toInt).isSome := by
  rcases (DataObject.size_of_faultless (data_faults_of_verify hverify hd) hv).1 with
    hsize | hsize | hsize | hsize
  · rw [hsize, Profile.dataDirective?, hp.data8]
    rfl
  · rw [hsize, Profile.dataDirective?, hp.data16]
    rfl
  · rw [hsize, Profile.dataDirective?, hp.data32]
    rfl
  · rcases hp.data64 with hquad | hnone
    · rw [hsize, Profile.dataDirective?, hquad]
      rfl
    · exact absurd hsize (size_of_standardResult (by simp [Profile.hasData64, hnone]) hd hv)

/-! ## The agreement -/

/-- After a finished run of the standard stages with checks, a legible unit that can be assembled has an
assembly text. The data part of it, as an assembler reads it, stands for the bytes, the symbols and the
relocations that the object holds for its data objects. -/
theorem data_part_denotes_section {b : Bucket} {c : Conventions} {p : Profile} {o : Options}
    {u : CodeUnit} {obj : Object} (hp : Profile.ofBucket b c = .ok p) (hverify : o.verify = true)
    (hrun : (runStages p o Stage.standard u).ending = .finished)
    (hlegible : (runStages p o Stage.standard u).unit.IsLegible p.dialect)
    (hobj : Object.assemble p (runStages p o Stage.standard u).unit = .ok obj) :
    ∃ text, assemblyText p (runStages p o Stage.standard u).unit = .ok text ∧
      DataImage.ofText text = some (obj.dataImage p) := by
  have husual := Profile.isUsual_of_ofBucket hp
  have hdirective : ∀ lines, Listing.ofUnit p (runStages p o Stage.standard u).unit = .ok lines →
      ∀ line ∈ lines, line.HasDirective p := fun _ => hasDirective_of_finished hrun
  obtain ⟨hunit, -, hresult⟩ := runStages_standard_finished hverify hrun
  rw [hunit] at hobj hlegible hdirective ⊢
  obtain ⟨lines, hlines⟩ := Listing.exists_ok_of_verify hresult fun _ hd _ hv =>
    dataDirective?_of_standardResult husual hresult hd hv
  obtain ⟨chunk, hchunk, himage⟩ := Object.dataImage_of_assemble husual hobj
  refine ⟨Listing.render p lines, ?_, ?_⟩
  · rw [assemblyText, hlines]
    rfl
  · rw [himage]
    exact DataImage.ofText_render husual hresult hlegible hlines (hdirective lines hlines) hchunk

/-- A 32-bit platform that has no directive for eight bytes and aligns by powers of two. -/
def narrowBucket : Bucket :=
  { arch := .x86, format := .macho, os := .darwin, env := .standard }

/-- Its conventions. -/
def narrowProfile : Profile :=
  .envStep narrowBucket <| .osStep narrowBucket <| .formatStep narrowBucket {} <|
    .archStep narrowBucket {} { bucket := narrowBucket }

/-- Data of all widths: a negative byte, eight bytes, a pointer before a symbol, and an integer that
its two bytes do not hold. -/
def wideData : CodeUnit :=
  { name := "wide"
    data := [{ name := "flag", linkage := .global, values := [{ size := 1, int := -1 }] },
      { name := "table", linkage := .weak, align := 8
        values := [{ size := 8, int := -2 }, { size := 8, sym := "outside", int := -4 },
          { size := 2, int := 65537 }] }] }

/-- The run of the standard stages over it. -/
def wideRun : StageRun :=
  runStages narrowProfile { verify := true } Stage.standard wideData

/-- The values of eight bytes are split, and both the text and the object have seven zeros before the
table, the halves in order, a field of four bytes and the low half of the last integer. -/
theorem wide_data_denotes_section :
    ∃ text obj, Profile.ofBucket narrowBucket {} = .ok narrowProfile ∧
      wideRun.ending = .finished ∧ wideRun.unit.IsLegible narrowProfile.dialect ∧
      assemblyText narrowProfile wideRun.unit = .ok text ∧
      Object.assemble narrowProfile wideRun.unit = .ok obj ∧
      DataImage.ofText text = some (obj.dataImage narrowProfile) ∧
      obj.dataImage narrowProfile =
        { bytes := [0xff, 0, 0, 0, 0, 0, 0, 0, 0xfe, 0xff, 0xff, 0xff, 0xff, 0xff, 0xff, 0xff,
            0, 0, 0, 0, 0, 0, 0, 0, 1, 0]
          symbols := [("_flag", 0), ("_table", 8)]
          fields := [{ place := 16, width := 4, symbol := "_outside", addend := -4 }] } := by
  have hrun : wideRun.ending = .finished := by decide +kernel
  have hlegible : wideRun.unit.IsLegible narrowProfile.dialect := by decide +kernel
  have himage : (Object.assemble narrowProfile wideRun.unit).toOption.map
      (Object.dataImage narrowProfile) = some
        { bytes := [0xff, 0, 0, 0, 0, 0, 0, 0, 0xfe, 0xff, 0xff, 0xff, 0xff, 0xff, 0xff, 0xff,
            0, 0, 0, 0, 0, 0, 0, 0, 1, 0]
          symbols := [("_flag", 0), ("_table", 8)]
          fields := [{ place := 16, width := 4, symbol := "_outside", addend := -4 }] } := by
    decide +kernel
  cases hobj : Object.assemble narrowProfile wideRun.unit with
  | error e =>
    rw [hobj] at himage
    cases himage
  | ok obj =>
    rw [hobj] at himage
    obtain ⟨text, htext, hpart⟩ :=
      data_part_denotes_section (b := narrowBucket) (c := {}) rfl rfl hrun hlegible hobj
    exact ⟨text, obj, rfl, hrun, hlegible, htext, rfl, hpart, Option.some.inj himage⟩

/-- A unit with one value. -/
def oneValue (v : Datum) : CodeUnit :=
  { name := "unit", data := [{ name := "table", linkage := .global, values := [v] }] }

/-- The checked run of the standard stages over it for the host. -/
def valueRun (v : Datum) : StageRun :=
  runStages Profile.host { verify := true } Stage.standard (oneValue v)

/-- A symbol with the name `5` and the number five: two units in source form that pass all checks and go
through the stages. They have one text, and its data part stands for the number. The object of the first
one has a field for the address of the symbol instead. -/
theorem digits_denote_number :
    (oneValue { size := 8, sym := "5" }).IsSource ∧
      (valueRun { size := 8, sym := "5" }).ending = .finished ∧
      (valueRun { size := 8, int := 5 }).ending = .finished ∧
      assemblyText Profile.host (valueRun { size := 8, sym := "5" }).unit =
        assemblyText Profile.host (valueRun { size := 8, int := 5 }).unit ∧
      (assemblyText Profile.host (valueRun { size := 8, sym := "5" }).unit).toOption.bind
          DataImage.ofText = some { bytes := [5, 0, 0, 0, 0, 0, 0, 0], symbols := [("table", 0)] } ∧
      (Object.assemble Profile.host (valueRun { size := 8, int := 5 }).unit).toOption.map
          (Object.dataImage Profile.host) =
        some { bytes := [5, 0, 0, 0, 0, 0, 0, 0], symbols := [("table", 0)] } ∧
      (Object.assemble Profile.host (valueRun { size := 8, sym := "5" }).unit).toOption.map
          (Object.dataImage Profile.host) =
        some { bytes := [0, 0, 0, 0, 0, 0, 0, 0], symbols := [("table", 0)]
               fields := [{ place := 0, width := 8, symbol := "5", addend := 0 }] } := by
  decide +kernel

end CodeEmission
