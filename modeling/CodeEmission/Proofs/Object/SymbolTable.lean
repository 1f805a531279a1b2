import CodeEmission.Proofs.CodeUnit.DefinedNames
import CodeEmission.Proofs.Object.Symbols
import CodeEmission.Proofs.Platform.Conventions
import CodeEmission.Proofs.Platform.Host
import CodeEmission.Proofs.Text.ByteOrder

/-!
# Closed Symbol Tables

Relocations and unwind records refer to symbols by name. The symbol table of an object names all of
them: first what the unit defines, and then, without a section, what is left.

* `Object.RefersTo`: what can be seen in an object of the names that were referred to. An empty section
  is left out of the object, and nothing refers to a name from there (`Object.exists_references`).
* `Object.pairwise_undefinedSymbols`: entries without a section stand in the order of the bytes of
  their names, each name once.
* `Object.entries_of_assemble`: on every platform a defined symbol has a section, so the two parts of a
  table can be told apart.
* `Object.hasExactSymbols_of_assemble`: the table as a whole.
-/

namespace CodeEmission.Object

/-- A relocation or an unwind record of the object refers to a name. -/
def RefersTo (obj : Object) (name : String) : Prop :=
  (∃ s ∈ obj.sections, ∃ r ∈ s.relocs, r.symbol = name) ∨
    ∃ record ∈ obj.unwind, name ∈ record.personalitySyms

instance (obj : Object) (name : String) : Decidable (obj.RefersTo name) :=
  inferInstanceAs (Decidable (_ ∨ _))

/-- The entries of the symbol table that have a section. -/
def definedEntries (obj : Object) : List Symbol :=
  obj.symbols.filter Symbol.isDefined

/-- The entries of the symbol table without a section. -/
def undefinedEntries (obj : Object) : List Symbol :=
  obj.symbols.filter fun s => !s.isDefined

/-- The symbol table of the object of a unit names all that the object refers to, and no more than that
besides what the unit defines. -/
structure HasExactSymbols (u : CodeUnit) (obj : Object) : Prop where
  /-- Every name that the object refers to has an entry. -/
  closed : ∀ name, obj.RefersTo name → name ∈ obj.symbols.map Symbol.name
  /-- The entries without a section come last. -/
  last : obj.symbols = obj.definedEntries ++ obj.undefinedEntries
  /-- They stand in the order of the bytes of their names, and no name stands there twice. -/
  increasing : obj.undefinedEntries.Pairwise fun a b =>
    Text.bytesOfText a.name < Text.bytesOfText b.name
  /-- They are for other objects to define. -/
  binding : ∀ s ∈ obj.undefinedEntries, s.binding = .global
  /-- A name is among them exactly when the object refers to it and the unit does not define it. -/
  undefined : ∀ name, name ∈ obj.undefinedEntries.map Symbol.name ↔
    obj.RefersTo name ∧ name ∉ u.definedNames

/-! ## References -/

/-- The names that an object refers to are those of all its relocations and of all its unwind
records. -/
theorem refersTo_iff {obj : Object} {name : String} :
    obj.RefersTo name ↔ name ∈ (obj.sections.flatMap Section.relocs).map Reloc.symbol ∨
      name ∈ obj.unwind.flatMap UnwindRecord.personalitySyms := by
  rw [RefersTo, List.mem_flatMap, List.mem_map]
  apply or_congr_left
  constructor
  · rintro ⟨s, hs, r, hr, hname⟩
    exact ⟨r, List.mem_flatMap.mpr ⟨s, hs, hr⟩, hname⟩
  · rintro ⟨r, hr, hname⟩
    obtain ⟨s, hs, hr⟩ := List.mem_flatMap.mp hr
    exact ⟨s, hs, r, hr, hname⟩

/-- A list of entities gives its relocations to its section. One that is left out has none. -/
theorem relocs_of_concat {α ε : Type} {f : Nat → α → Except ε Chunk} {as : List α} {c : Chunk}
    (name : String) (h : Chunk.concat f 0 as = .ok c) :
    (if as.isEmpty then [] else [sectionOf name c]).flatMap Section.relocs = c.relocs := by
  split
  next hnone =>
    rw [List.isEmpty_iff.mp hnone, Chunk.concat_nil_eq_ok_iff] at h
    rw [h]
    rfl
  next => simp [sectionOf]

/-- The symbols of an object are those of its chunks and, of the names that the object refers to, those
that are left. -/
theorem exists_references {p : Profile} {u : CodeUnit} {obj : Object}
    (h : assemble p u = .ok obj) :
    ∃ text data refs, Chunk.concat (funcChunk p) 0 u.funcs = .ok text ∧
      Chunk.concat (dataChunk p) 0 u.data = .ok data ∧
      obj.symbols = text.symbols ++ data.symbols ++
        undefinedSymbols (text.symbols ++ data.symbols) refs ∧
      ∀ name, name ∈ refs ↔ obj.RefersTo name := by
  obtain ⟨text, data, htext, hdata, rfl⟩ := assemble_eq_ok h
  refine ⟨text, data, references text data, htext, hdata, rfl, fun name => ?_⟩
  rw [refersTo_iff]
  simp only [List.flatMap_append, relocs_of_concat _ htext, relocs_of_concat _ hdata, references,
    List.map_append, List.mem_append]
  exact or_right_comm

/-! ## The order of names -/

/-- The entries for names that are only referred to stand in the order of bytes. -/
theorem pairwise_undefinedSymbols (defined : List Symbol) (refs : List String) :
    (undefinedSymbols defined refs).Pairwise fun a b =>
      Text.bytesOfText a.name < Text.bytesOfText b.name := by
  have hsorted : ((undefinedSymbols defined refs).map Symbol.name).Pairwise
      fun a b => Text.bytesOfText a ≤ Text.bytesOfText b := by
    rw [map_name_undefinedSymbols]
    exact Text.pairwise_bytesOfText_mergeSort _
  have hnodup : ((undefinedSymbols defined refs).map Symbol.name).Pairwise (· ≠ ·) :=
    (nodup_undefinedSymbols defined refs).1
  -- sorted names that are all different grow from one to the next
  have hgrow : ((undefinedSymbols defined refs).map Symbol.name).Pairwise
      fun a b => Text.bytesOfText a < Text.bytesOfText b := by
    refine (hsorted.and hnodup).imp fun {a b} hab => ?_
    apply Text.bytesOfText_lt_iff.mpr
    exact lt_of_le_of_ne (Text.bytesOfText_le_iff.mp hab.1) hab.2
  rw [List.pairwise_map] at hgrow
  exact hgrow

/-! ## The two parts of a table -/

section Parts

variable {p : Profile} {u : CodeUnit} {obj : Object} {text data : Chunk}

/-- On every platform the symbols of functions and data objects have a section. -/
theorem isDefined_of_chunks (hp : p.IsUsual)
    (htext : Chunk.concat (funcChunk p) 0 u.funcs = .ok text)
    (hdata : Chunk.concat (dataChunk p) 0 u.data = .ok data) :
    ∀ s ∈ text.symbols ++ data.symbols, s.isDefined = true := by
  refine List.forall_mem_append.mpr ⟨fun s hs => ?_, fun s hs => ?_⟩
  · have hsection : s.section_ = p.textSection :=
      (Chunk.allSymbols_of_concat (fun _ _ _ => isText_of_funcChunk) htext s hs).1
    simp [Symbol.isDefined, hsection, hp.textSection_ne_empty]
  · have hsection : s.section_ = p.dataSection :=
      (Chunk.allSymbols_of_concat (fun _ _ _ => isData_of_dataChunk) hdata s hs).1
    simp [Symbol.isDefined, hsection, hp.dataSection_ne_empty]

theorem isDefined_of_mem_undefinedSymbols {defined : List Symbol} {refs : List String} :
    ∀ s ∈ undefinedSymbols defined refs, s.isDefined = false := by
  intro s hs
  simp [Symbol.isDefined, (isReference_of_mem_undefinedSymbols s hs).1]

/-- The entries with a section are the symbols of the chunks, and those without are the names that are
left of the ones that the object refers to. -/
theorem entries_of_assemble (hp : p.IsUsual) (h : assemble p u = .ok obj) :
    obj.symbols = obj.definedEntries ++ obj.undefinedEntries ∧
      obj.definedEntries.map Symbol.name = u.definedNames ∧
      ∃ refs, obj.undefinedEntries = undefinedSymbols obj.definedEntries refs ∧
        ∀ name, name ∈ refs ↔ obj.RefersTo name := by
  obtain ⟨text, data, refs, htext, hdata, hsymbols, hrefs⟩ := exists_references h
  have hin := isDefined_of_chunks hp htext hdata
  have hout : ∀ s ∈ undefinedSymbols (text.symbols ++ data.symbols) refs, s.isDefined = false :=
    isDefined_of_mem_undefinedSymbols
  have hdefined : obj.definedEntries = text.symbols ++ data.symbols := by
    rw [definedEntries, hsymbols, List.filter_append, List.filter_eq_self.mpr hin,
      List.filter_eq_nil_iff.mpr fun s hs => by simp [hout s hs], List.append_nil]
  have hundefined : obj.undefinedEntries =
      undefinedSymbols (text.symbols ++ data.symbols) refs := by
    rw [undefinedEntries, hsymbols, List.filter_append,
      List.filter_eq_nil_iff.mpr fun s hs => by simp [hin s hs],
      List.filter_eq_self.mpr fun s hs => by simp [hout s hs], List.nil_append]
  rw [hdefined, hundefined]
  exact ⟨hsymbols, map_name_of_chunks htext hdata, refs, rfl, hrefs⟩

/-- The defined symbols of an object name what the unit defines. -/
theorem map_name_filter_isDefined (hp : p.IsUsual) (h : assemble p u = .ok obj) :
    (obj.symbols.filter Symbol.isDefined).map Symbol.name = u.definedNames :=
  (entries_of_assemble hp h).2.1

/-- The symbol table is closed and exact. In every object of a unit each symbol of a relocation and
each symbol of an unwind record has an entry. The entries without a section come after all others, are
global and stand in the order of the bytes of their names, each once; a name is among them exactly when
a relocation or an unwind record refers to it and no function, label, jump table or data object of the
unit has it. -/
theorem hasExactSymbols_of_assemble {b : Bucket} {c : Conventions}
    (hp : Profile.ofBucket b c = .ok p) (h : assemble p u = .ok obj) : obj.HasExactSymbols u := by
  obtain ⟨hsymbols, hnames, refs, hundefined, hrefs⟩ :=
    entries_of_assemble (Profile.isUsual_of_ofBucket hp) h
  have hexact : ∀ name, name ∈ obj.undefinedEntries.map Symbol.name ↔
      obj.RefersTo name ∧ name ∉ u.definedNames := by
    intro name
    rw [hundefined, mem_map_name_undefinedSymbols, hrefs, hnames]
  constructor
  case closed =>
    intro name hname
    rw [hsymbols, List.map_append, hnames, List.mem_append]
    by_cases hdefined : name ∈ u.definedNames
    · exact .inl hdefined
    · exact .inr ((hexact name).mpr ⟨hname, hdefined⟩)
  case last => exact hsymbols
  case increasing =>
    rw [hundefined]
    exact pairwise_undefinedSymbols _ _
  case binding =>
    intro s hs
    rw [hundefined] at hs
    exact (isReference_of_mem_undefinedSymbols s hs).2.2
  case undefined => exact hexact

end Parts

/-- A function that refers to a data object before that is defined, with an unwind record, and symbols
of other objects in no order. -/
def referring : CodeUnit :=
  { name := "referring"
    funcs := [{ name := "caller", linkage := .global
                unwind := { kind := .cfi, personalitySyms := ["personality", "alpha", "caller"] }
                insts := [{ op := "call", encoding := "e800000000"
                            operands := [{ kind := .sym, sym := "Zeta" }] },
                  { op := "call", encoding := "e800000000"
                    operands := [{ kind := .sym, sym := "late" }] }] }]
    data := [{ name := "late", linkage := .internal
               values := [{ size := 8, sym := "alpha" }, { size := 4, sym := "Zeta" }] }] }

/-- It refers to five names. Two of them it defines, and the other three have entries without a
section. -/
theorem hasExactSymbols_referring :
    ∃ obj, Profile.ofBucket Triple.host.bucket {} = .ok Profile.host ∧
      assemble Profile.host referring = .ok obj ∧ obj.HasExactSymbols referring ∧
      (∀ name ∈ ["Zeta", "alpha", "personality"],
        name ∈ obj.undefinedEntries.map Symbol.name) ∧
      ∀ name ∈ ["caller", "late"], obj.RefersTo name ∧
        name ∈ obj.symbols.map Symbol.name ∧ name ∉ obj.undefinedEntries.map Symbol.name := by
  have hrefers : (assemble Profile.host referring).toOption.any (fun obj =>
      (["Zeta", "alpha", "personality"] ++ ["caller", "late"]).all fun name =>
        decide (obj.RefersTo name)) = true := by decide +kernel
  have hnames : referring.definedNames = ["caller", "late"] := by decide +kernel
  have hapart : ∀ name ∈ ["Zeta", "alpha", "personality"], name ∉ ["caller", "late"] := by decide
  match hobj : assemble Profile.host referring with
  | .error e =>
    rw [hobj] at hrefers
    cases hrefers
  | .ok obj =>
    have hexact := hasExactSymbols_of_assemble Profile.ofTriple_host hobj
    rw [hobj] at hrefers
    have hall : ∀ name ∈ ["Zeta", "alpha", "personality"] ++ ["caller", "late"],
        obj.RefersTo name := fun name hname =>
      of_decide_eq_true (List.all_eq_true.mp hrefers name hname)
    refine ⟨obj, Profile.ofTriple_host, rfl, hexact, fun name hname => ?_, fun name hname => ?_⟩
    · apply (hexact.undefined name).mpr
      rw [hnames]
      exact ⟨hall name (List.mem_append_left _ hname), hapart name hname⟩
    · have hrefersTo := hall name (List.mem_append_right _ hname)
      refine ⟨hrefersTo, hexact.closed name hrefersTo, fun hmem => ?_⟩
      have hother := ((hexact.undefined name).mp hmem).2
      rw [hnames] at hother
      exact hother hname

end CodeEmission.Object
