import CodeEmission.Proofs.Object.Chunk

/-!
# The Kinds of Symbols

An object has three sorts of symbols: those in the section of functions, which are functions and
labels; those in the section of data, which are data objects; and those that are only referred to.
The sort decides the section, the kind and the possible bindings.

* `isText_of_funcChunk`, `isData_of_dataChunk`: the symbols that entities contribute.
* `Object.symbols_of_assemble`: the symbols of an object, sort by sort.
-/

namespace CodeEmission

/-- A symbol in the section of functions: a function's own, with the binding of its linkage, or a
label, which nobody else sees. -/
def Symbol.IsText (p : Profile) (s : Symbol) : Prop :=
  s.section_ = p.textSection ∧
    ((s.kind = .func ∧ ∃ l, s.binding = .ofLinkage l) ∨ (s.kind = .label ∧ s.binding = .internal))

/-- A label in the section of functions. -/
def Symbol.IsLabel (p : Profile) (s : Symbol) : Prop :=
  s.section_ = p.textSection ∧ s.kind = .label ∧ s.binding = .internal

theorem Symbol.IsLabel.isText {p : Profile} {s : Symbol} (h : s.IsLabel p) : s.IsText p :=
  ⟨h.1, .inr h.2⟩

/-- A symbol in the section of data: a data object's, with the binding of its linkage. -/
def Symbol.IsData (p : Profile) (s : Symbol) : Prop :=
  s.section_ = p.dataSection ∧ s.kind = .data ∧ ∃ l, s.binding = .ofLinkage l

/-- A symbol that is only referred to. -/
def Symbol.IsReference (s : Symbol) : Prop :=
  s.section_ = "" ∧ s.kind = .untyped ∧ s.binding = .global

/-- All symbols of a chunk have a property. -/
def Chunk.AllSymbols (P : Symbol → Prop) (c : Chunk) : Prop :=
  ∀ s ∈ c.symbols, P s

namespace Chunk

variable {P : Symbol → Prop}

theorem AllSymbols.append {a b : Chunk} (ha : a.AllSymbols P) (hb : b.AllSymbols P) :
    (a.append b).AllSymbols P :=
  List.forall_mem_append.mpr ⟨ha, hb⟩

/-- What holds of all symbols of every member's chunk holds of those of the list's chunk. -/
theorem allSymbols_of_concat {α ε : Type} {f : Nat → α → Except ε Chunk} {loc : Nat} {c : Chunk}
    {as : List α} (hpiece : ∀ loc a piece, f loc a = .ok piece → piece.AllSymbols P)
    (h : concat f loc as = .ok c) : c.AllSymbols P :=
  concat_induction (P := fun _ c => c.AllSymbols P) (fun _ => nofun) hpiece
    (fun _ _ _ => .append) h

end Chunk

section Parts

variable {p : Profile} {loc : Nat} {c : Chunk}

/-- An instruction contributes a label at most. -/
theorem isLabel_of_instChunk {numbered : Inst × Nat} (h : instChunk p loc numbered = .ok c) :
    c.AllSymbols (Symbol.IsLabel p) := by
  obtain ⟨inst, i⟩ := numbered
  obtain ⟨bytes, relocs, -, -, rfl⟩ := instChunk_eq_ok h
  show ∀ s ∈ inst.labelSymbols p loc, s.IsLabel p
  unfold Inst.labelSymbols
  split
  · nofun
  · exact List.forall_mem_singleton.mpr ⟨rfl, rfl, rfl⟩

/-- A jump table contributes a label. -/
theorem isLabel_of_tableChunk {body : List Symbol} {t : JumpTable}
    (h : tableChunk p body loc t = .ok c) : c.AllSymbols (Symbol.IsLabel p) := by
  obtain ⟨entries, -, rfl⟩ := tableChunk_eq_ok h
  exact List.forall_mem_singleton.mpr ⟨rfl, rfl, rfl⟩

/-- A function contributes its own symbol and labels. -/
theorem isText_of_funcChunk {f : Func} (h : funcChunk p loc f = .ok c) :
    c.AllSymbols (Symbol.IsText p) := by
  obtain ⟨fill, start, body, tables, -, -, -, -, hbody, htables, rfl⟩ := funcChunk_eq_ok h
  have hfill : Chunk.AllSymbols (Symbol.IsText p)
      { bytes := fill, align := max 1 f.align.toInt.toNat } := nofun
  have hname : Chunk.AllSymbols (Symbol.IsText p)
      { symbols := [f.textSymbol p start body.bytes.length] } :=
    List.forall_mem_singleton.mpr ⟨rfl, .inl ⟨rfl, f.linkage, rfl⟩⟩
  have hbody : body.AllSymbols (Symbol.IsText p) := fun s hs =>
    (Chunk.allSymbols_of_concat (fun _ _ _ => isLabel_of_instChunk) hbody s hs).isText
  have htables : tables.AllSymbols (Symbol.IsText p) := fun s hs =>
    (Chunk.allSymbols_of_concat (fun _ _ _ => isLabel_of_tableChunk) htables s hs).isText
  have hunwind : Chunk.AllSymbols (Symbol.IsText p) { unwind := f.unwindRecords } := nofun
  exact (((hfill.append hname).append hbody).append htables).append hunwind

/-- A data object contributes its own symbol. -/
theorem isData_of_dataChunk {d : DataObject} (h : dataChunk p loc d = .ok c) :
    c.AllSymbols (Symbol.IsData p) := by
  obtain ⟨fill, start, body, -, -, -, -, hbody, rfl⟩ := dataChunk_eq_ok h
  have hfill : Chunk.AllSymbols (Symbol.IsData p)
      { bytes := fill, align := max 1 d.align.toInt.toNat } := nofun
  have hname : Chunk.AllSymbols (Symbol.IsData p)
      { symbols := [d.dataSymbol p start body.bytes.length] } :=
    List.forall_mem_singleton.mpr ⟨rfl, rfl, d.linkage, rfl⟩
  have hbody : body.AllSymbols (Symbol.IsData p) := by
    rw [Chunk.AllSymbols, symbols_of_values hbody]
    nofun
  exact (hfill.append hname).append hbody

end Parts

namespace Object

/-- The symbols that are only referred to. -/
theorem isReference_of_mem_undefinedSymbols {defined : List Symbol} {refs : List String} :
    ∀ s ∈ undefinedSymbols defined refs, s.IsReference := by
  intro s hs
  obtain ⟨name, -, rfl⟩ := List.mem_map.mp hs
  exact ⟨rfl, rfl, rfl⟩

/-- A symbol of an object is of one of the three sorts. -/
theorem symbols_of_assemble {p : Profile} {u : CodeUnit} {obj : Object}
    (h : assemble p u = .ok obj) {s : Symbol} (hs : s ∈ obj.symbols) :
    s.IsText p ∨ s.IsData p ∨ s.IsReference := by
  obtain ⟨text, data, htext, hdata, rfl⟩ := assemble_eq_ok h
  have htext : text.AllSymbols (Symbol.IsText p) :=
    Chunk.allSymbols_of_concat (fun _ _ _ => isText_of_funcChunk) htext
  have hdata : data.AllSymbols (Symbol.IsData p) :=
    Chunk.allSymbols_of_concat (fun _ _ _ => isData_of_dataChunk) hdata
  rcases List.mem_append.mp hs with hs | hs
  · rcases List.mem_append.mp hs with hs | hs
    · exact .inl (htext s hs)
    · exact .inr (.inl (hdata s hs))
  · exact .inr (.inr (isReference_of_mem_undefinedSymbols s hs))

end Object

end CodeEmission
