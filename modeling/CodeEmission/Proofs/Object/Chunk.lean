import CodeEmission.Object.Assemble
import CodeEmission.Proofs.Success
import Mathlib.Algebra.Group.Nat.Defs

/-!
# Chunks Taken Apart

What it means that a part of a unit was assembled. For each function that builds a chunk there is one
lemma that says which chunk it is when there is one, so that later proofs never look inside.

* `word32_eq_ok_iff`: a word stands for the number it was made from.
* `padChunk_eq_ok_iff`, `instChunk_eq_ok`, `tableChunk_eq_ok`, `funcChunk_eq_ok`,
  `valueChunk_eq_ok`, `dataChunk_eq_ok`: the chunks of the parts.
* `Chunk.concat_cons_eq_ok_iff` and `Chunk.concat_append_eq_ok`: the chunk of a list is that of its
  first part and then that of the rest, from where the first part ends.
* `Object.assemble_eq_ok`: the sections of an object are the chunks of the functions and of the data.
-/

namespace CodeEmission

/-- Blaming an entity for a fault changes no success. -/
@[simp]
theorem Object.blame_eq_ok_iff {α : Type} {kind : EntityKind} {name : String}
    {x : Except AssembleFault α} {a : α} : blame kind name x = .ok a ↔ x = .ok a := by
  cases x <;> simp [blame]

/-- A word stands for the number it was made from. -/
theorem word32_eq_ok_iff {n : Int} {w : UInt32} : word32 n = .ok w ↔ (w.toNat : Int) = n := by
  unfold word32
  split
  next h =>
    rw [Except.ok.injEq]
    constructor
    · rintro rfl
      rw [UInt32.toNat_ofNat_of_lt' h.2, Int.toNat_of_nonneg h.1]
    · rintro rfl
      simp
  next h =>
    constructor
    · intro hok
      cases hok
    · rintro rfl
      exact absurd ⟨Int.natCast_nonneg _, w.toNat_lt_size⟩ h

/-- An offset is a word when it fits one. -/
theorem word32_natCast (n : Nat) :
    word32 n = if n < UInt32.size then .ok (UInt32.ofNat n) else .error .outOfRange := by
  rw [word32, Int.toNat_natCast]
  simp only [Int.natCast_nonneg, true_and]

/-- The word of an offset is the offset. -/
theorem word32_natCast_eq_ok_iff {n : Nat} {w : UInt32} :
    word32 n = .ok w ↔ n < UInt32.size ∧ w = UInt32.ofNat n := by
  rw [word32_natCast]
  split
  next h => rw [Except.ok.injEq, and_iff_right h, eq_comm]
  next h => exact ⟨nofun, fun hand => absurd hand.1 h⟩

/-- Only the bytes that are written matter. -/
theorem littleEndian_mod (width n : Nat) :
    littleEndian width (n % 256 ^ width) = littleEndian width n := by
  induction width generalizing n with
  | zero => rfl
  | succ width ih =>
    have hlow : n % 256 ^ (width + 1) % 256 = n % 256 :=
      Nat.mod_mod_of_dvd n ⟨256 ^ width, Nat.pow_succ'⟩
    have hhigh : n % 256 ^ (width + 1) / 256 = n / 256 % 256 ^ width := by
      rw [Nat.pow_succ', Nat.mod_mul_right_div_self]
    rw [littleEndian, littleEndian, hlow, hhigh, ih]

/-- A symbol is placed when its offset and its size are words. -/
theorem symbolAt_eq_ok_iff {section_ name : String} {kind : SymbolKind} {binding : Binding}
    {loc size : Nat} {s : Symbol} :
    symbolAt section_ name kind binding loc size = .ok s ↔
      loc < UInt32.size ∧ size < UInt32.size ∧
        s = { name, kind, binding, section_, offset := UInt32.ofNat loc
              size := UInt32.ofNat size } := by
  rw [symbolAt, word32_natCast, word32_natCast]
  by_cases hloc : loc < UInt32.size
  · by_cases hsize : size < UInt32.size
    · simp only [hloc, hsize, if_true, true_and, Except.ok.injEq, eq_comm]
    · simp only [hloc, hsize, if_true, if_false, reduceCtorEq, false_and, and_false]
  · simp only [hloc, if_false, reduceCtorEq, false_and]

/-- An alignment that fits a word is kept, and the gap before its next multiple is filled. -/
theorem padChunk_eq_ok_iff {align : Int64} {loc : Nat} {fill : UInt8} {c : Chunk} :
    padChunk align loc fill = .ok c ↔
      align.toInt < UInt32.size ∧
        c = { bytes := padding align.toInt.toNat loc fill, align := max 1 align.toInt.toNat } := by
  unfold padChunk
  split
  next hle =>
    have hint : align.toInt ≤ 1 := Int64.le_iff_toInt_le.mp hle
    have hnat : align.toInt.toNat ≤ 1 := by omega
    rw [padding, if_pos hnat, Nat.max_eq_left hnat, Except.ok.injEq,
      and_iff_right (Int.lt_of_le_of_lt hint (by decide)), eq_comm]
  next hgt =>
    have hint : ¬ align.toInt ≤ 1 := fun hle => hgt (Int64.le_iff_toInt_le.mpr hle)
    have hmax : max 1 align.toInt.toNat = align.toInt.toNat := Nat.max_eq_right (by omega)
    rw [hmax]
    cases hword : word32 align.toInt with
    | error e =>
      unfold word32 at hword
      split at hword
      · cases hword
      next hbound =>
        exact ⟨nofun, fun h => absurd h.1 (by omega)⟩
    | ok w =>
      have hbound := word32_eq_ok_iff.mp hword
      have hlt := w.toNat_lt_size
      have hsmall : align.toInt < UInt32.size := by omega
      simp only [hsmall, true_and, Except.ok.injEq, eq_comm]

namespace Chunk

section Concat

variable {α ε : Type} {f : Nat → α → Except ε Chunk} {loc : Nat} {c : Chunk}

/-- Nothing gives the empty chunk. -/
@[simp]
theorem concat_nil_eq_ok_iff : concat f loc [] = .ok c ↔ c = {} := by
  rw [concat, Except.ok.injEq, eq_comm]

/-- The chunk of a list is that of its head and then that of its tail. -/
theorem concat_cons_eq_ok_iff {a : α} {rest : List α} :
    concat f loc (a :: rest) = .ok c ↔
      ∃ piece later, f loc a = .ok piece ∧
        concat f (loc + piece.bytes.length) rest = .ok later ∧ c = piece.append later := by
  rw [concat]
  cases hpiece : f loc a with
  | error e => simp
  | ok piece =>
    cases hlater : concat f (loc + piece.bytes.length) rest with
    | error e => simp [hlater]
    | ok later => simp [hlater, eq_comm]

/-- A list asks for an alignment of one byte at least. -/
theorem one_le_align_of_concat {as : List α} (h : concat f loc as = .ok c) : 1 ≤ c.align := by
  induction as generalizing loc c with
  | nil =>
    obtain rfl := concat_nil_eq_ok_iff.mp h
    exact Nat.le_refl 1
  | cons a rest ih =>
    obtain ⟨piece, later, -, hlater, rfl⟩ := concat_cons_eq_ok_iff.mp h
    exact Nat.le_trans (ih hlater) (Nat.le_max_right _ _)

/-- Before a chunk that was put together the empty one changes nothing. -/
theorem empty_append (h : 1 ≤ c.align) : ({} : Chunk).append c = c := by
  cases c
  simp only [append, List.nil_append, mk.injEq, and_true, true_and]
  exact Nat.max_eq_right h

/-- The chunk of two lists is that of the first and then that of the second. -/
theorem concat_append_eq_ok {as bs : List α} (h : concat f loc (as ++ bs) = .ok c) :
    ∃ before after, concat f loc as = .ok before ∧
      concat f (loc + before.bytes.length) bs = .ok after ∧ c = before.append after := by
  induction as generalizing loc c with
  | nil => exact ⟨{}, c, rfl, h, (empty_append (one_le_align_of_concat h)).symm⟩
  | cons a rest ih =>
    obtain ⟨piece, later, hpiece, hlater, rfl⟩ := concat_cons_eq_ok_iff.mp h
    obtain ⟨before, after, hbefore, hafter, rfl⟩ := ih hlater
    refine ⟨piece.append before, after, ?_, ?_, (append_assoc _ _ _).symm⟩
    · exact concat_cons_eq_ok_iff.mpr ⟨piece, before, hpiece, hbefore, rfl⟩
    · rw [bytes_append, List.length_append, ← Nat.add_assoc]
      exact hafter

/-- What one member of a list contributes lies between what comes before and after it. -/
theorem concat_split_eq_ok {as bs : List α} {a : α} (h : concat f loc (as ++ a :: bs) = .ok c) :
    ∃ before piece after, concat f loc as = .ok before ∧
      f (loc + before.bytes.length) a = .ok piece ∧
      concat f (loc + before.bytes.length + piece.bytes.length) bs = .ok after ∧
      c = before.append (piece.append after) := by
  obtain ⟨before, later, hbefore, hlater, rfl⟩ := concat_append_eq_ok h
  obtain ⟨piece, after, hpiece, hafter, rfl⟩ := concat_cons_eq_ok_iff.mp hlater
  exact ⟨before, piece, after, hbefore, hpiece, hafter, rfl⟩

/-- What holds of the empty chunk and of every member's, wherever it lies, and is kept when chunks
are joined, holds of the chunk of a list. -/
theorem concat_induction {P : Nat → Chunk → Prop} (hempty : ∀ loc, P loc {})
    (hpiece : ∀ loc a piece, f loc a = .ok piece → P loc piece)
    (hjoin : ∀ loc a b, P loc a → P (loc + a.bytes.length) b → P loc (a.append b))
    {as : List α} (h : concat f loc as = .ok c) : P loc c := by
  induction as generalizing loc c with
  | nil =>
    rw [concat_nil_eq_ok_iff.mp h]
    exact hempty loc
  | cons a rest ih =>
    obtain ⟨piece, later, hfirst, hlater, rfl⟩ := concat_cons_eq_ok_iff.mp h
    exact hjoin loc piece later (hpiece loc a piece hfirst) (ih hlater)

end Concat

end Chunk

section Parts

variable {p : Profile} {loc : Nat} {c : Chunk}

/-- The symbols that an instruction at an offset defines: its label, if it has one. -/
def Inst.labelSymbols (p : Profile) (loc : Nat) (inst : Inst) : List Symbol :=
  if inst.label = "" then []
  else [{ name := inst.label, kind := .label, binding := .internal, section_ := p.textSection
          offset := UInt32.ofNat loc }]

/-- The chunk of an instruction holds its machine code, its relocations and its label. -/
theorem instChunk_eq_ok {inst : Inst} {i : Nat} (h : instChunk p loc (inst, i) = .ok c) :
    ∃ bytes relocs, decodeEncoding inst.encoding = .ok bytes ∧
      instRelocs p i loc inst bytes = .ok relocs ∧
      c = { bytes, relocs, symbols := inst.labelSymbols p loc } := by
  unfold instChunk at h
  dsimp only at h
  split at h
  · cases h
  next symbols hsymbols =>
    have hlabel : symbols = inst.labelSymbols p loc := by
      unfold Inst.labelSymbols
      split at hsymbols
      next hempty => rw [if_pos hempty, ← Except.ok.inj hsymbols]
      next hempty =>
        obtain ⟨s, hs, rfl⟩ := map_eq_ok_iff.mp hsymbols
        rw [if_neg hempty, (symbolAt_eq_ok_iff.mp hs).2.2]
        rfl
    split at h
    · cases h
    · split at h
      · cases h
      next bytes hbytes =>
        obtain ⟨relocs, hrelocs, rfl⟩ := map_eq_ok_iff.mp h
        exact ⟨bytes, relocs, hbytes, hrelocs, by rw [hlabel]⟩

/-- The entries of a jump table are that of its first target, a label of the body at a distance that
fits, and then those of the rest. -/
theorem tableEntries_cons_eq_ok {body : List Symbol} {base : Nat} {target : String}
    {rest : List String} {bytes : List UInt8}
    (h : tableEntries body base (target :: rest) = .ok bytes) :
    ∃ offset later, labelOffset? body target = some offset ∧
      (Int32.minValue.toInt ≤ (offset : Int) - base ∧
        (offset : Int) - base ≤ Int32.maxValue.toInt) ∧
      tableEntries body base rest = .ok later ∧
      bytes = littleEndian 4 (((offset : Int) - base) % UInt32.size).toNat ++ later := by
  rw [tableEntries] at h
  split at h
  · cases h
  next offset hoffset =>
    dsimp only at h
    split at h
    next hfits =>
      obtain ⟨later, hlater, rfl⟩ := map_eq_ok_iff.mp h
      exact ⟨offset, later, hoffset, hfits, hlater, rfl⟩
    next => cases h

/-- A jump table takes four bytes for each target. -/
theorem length_of_tableEntries {body : List Symbol} {base : Nat} {targets : List String}
    {bytes : List UInt8} (h : tableEntries body base targets = .ok bytes) :
    bytes.length = 4 * targets.length := by
  induction targets generalizing bytes with
  | nil =>
    rw [tableEntries, Except.ok.injEq] at h
    rw [← h]
    rfl
  | cons target rest ih =>
    obtain ⟨offset, later, -, -, hlater, rfl⟩ := tableEntries_cons_eq_ok h
    rw [List.length_append, length_littleEndian, ih hlater, List.length_cons]
    omega

/-- The chunk of a jump table holds its entries, after fill bytes, and its label. -/
theorem tableChunk_eq_ok {body : List Symbol} {t : JumpTable}
    (h : tableChunk p body loc t = .ok c) :
    ∃ entries, tableEntries body (loc + (padding 4 loc p.textFill).length) t.targets =
        .ok entries ∧
      c = { bytes := padding 4 loc p.textFill ++ entries, align := 4
            symbols := [{ name := t.label, kind := .label, binding := .internal
                          section_ := p.textSection
                          offset := .ofNat (loc + (padding 4 loc p.textFill).length) }] } := by
  unfold tableChunk at h
  dsimp only at h
  split at h
  · cases h
  next symbol hsymbol =>
    split at h
    · cases h
    next entries hentries =>
      refine ⟨entries, hentries, ?_⟩
      rw [← Except.ok.inj h, (symbolAt_eq_ok_iff.mp hsymbol).2.2]
      rfl

/-- The symbol of a function that starts at an offset and whose body has the given length. -/
def Func.textSymbol (p : Profile) (f : Func) (start size : Nat) : Symbol :=
  { name := f.emittedName, kind := .func, binding := .ofLinkage f.linkage
    section_ := p.textSection, offset := UInt32.ofNat start, size := UInt32.ofNat size }

/-- The chunk of a function: fill bytes, its symbol, its body and its jump tables. Neither the
offset of the body nor its length exceeds a word. -/
theorem funcChunk_eq_ok {f : Func} (h : funcChunk p loc f = .ok c) :
    ∃ fill start body tables, fill = padding f.align.toInt.toNat loc p.textFill ∧
      start = loc + fill.length ∧ start < UInt32.size ∧ body.bytes.length < UInt32.size ∧
      Chunk.concat (instChunk p) start f.insts.zipIdx = .ok body ∧
      Chunk.concat (tableChunk p body.symbols) (start + body.bytes.length) f.jumpTables =
        .ok tables ∧
      c = (((Chunk.append { bytes := fill, align := max 1 f.align.toInt.toNat }
          { symbols := [f.textSymbol p start body.bytes.length] }).append body).append
            tables).append { unwind := f.unwindRecords } := by
  simp only [funcChunk, bind_eq_ok_iff] at h
  obtain ⟨pad, hpad, opening, hopening, body, hbody, size, hsize, tables, htables, hc⟩ := h
  obtain ⟨-, rfl⟩ := padChunk_eq_ok_iff.mp hpad
  obtain ⟨hstart, -, rfl⟩ := symbolAt_eq_ok_iff.mp hopening
  obtain ⟨hlength, rfl⟩ := word32_natCast_eq_ok_iff.mp hsize
  refine ⟨_, _, body, tables, rfl, rfl, hstart, hlength, hbody, htables, ?_⟩
  rw [← Except.ok.inj hc]
  rfl

/-- The chunk of a value: the bytes of an integer, or zeros with a relocation. -/
theorem valueChunk_eq_ok {v : Datum} {i : Nat} (h : valueChunk loc (v, i) = .ok c) :
    (v.sym = "" ∧ ∃ bytes, integerBytes? v.size v.int = some bytes ∧ c = { bytes }) ∨
      (v.sym ≠ "" ∧ loc < UInt32.size ∧
        c = { bytes := List.replicate v.size.toInt.toNat 0
              relocs := [{ offset := UInt32.ofNat loc
                           kind := if v.size = 8 then .abs64 else .abs32
                           symbol := v.sym, addend := v.int }] }) := by
  unfold valueChunk at h
  dsimp only at h
  split at h
  next hsym =>
    split at h
    · cases h
    next bytes hbytes => exact .inl ⟨hsym, bytes, hbytes, (Except.ok.inj h).symm⟩
  next hsym =>
    split at h
    · cases h
    next offset hoffset =>
      obtain ⟨hloc, rfl⟩ := word32_natCast_eq_ok_iff.mp hoffset
      split at h
      · cases h
      · exact .inr ⟨hsym, hloc, (Except.ok.inj h).symm⟩

/-- Values define no symbols. -/
theorem symbols_of_values {values : List (Datum × Nat)}
    (h : Chunk.concat valueChunk loc values = .ok c) : c.symbols = [] := by
  refine Chunk.concat_induction (P := fun _ c => c.symbols = []) (fun _ => rfl) ?_ ?_ h
  · rintro loc ⟨v, i⟩ piece hpiece
    rcases valueChunk_eq_ok hpiece with ⟨-, bytes, -, rfl⟩ | ⟨-, -, rfl⟩
    · rfl
    · rfl
  · intro loc a b ha hb
    rw [Chunk.symbols_append, ha, hb, List.append_nil]

/-- The symbol of a data object that starts at an offset and whose values have the given length. -/
def DataObject.dataSymbol (p : Profile) (d : DataObject) (start size : Nat) : Symbol :=
  { name := d.emittedName, kind := .data, binding := .ofLinkage d.linkage
    section_ := p.dataSection, offset := UInt32.ofNat start, size := UInt32.ofNat size }

/-- The chunk of a data object: fill bytes, its symbol and its values. -/
theorem dataChunk_eq_ok {d : DataObject} (h : dataChunk p loc d = .ok c) :
    ∃ fill start body, fill = padding d.align.toInt.toNat loc 0 ∧
      start = loc + fill.length ∧ start < UInt32.size ∧ body.bytes.length < UInt32.size ∧
      Chunk.concat valueChunk start d.values.zipIdx = .ok body ∧
      c = (Chunk.append { bytes := fill, align := max 1 d.align.toInt.toNat }
        { symbols := [d.dataSymbol p start body.bytes.length] }).append body := by
  simp only [dataChunk, bind_eq_ok_iff] at h
  obtain ⟨pad, hpad, opening, hopening, body, hbody, size, hsize, hc⟩ := h
  obtain ⟨-, rfl⟩ := padChunk_eq_ok_iff.mp hpad
  obtain ⟨hstart, -, rfl⟩ := symbolAt_eq_ok_iff.mp hopening
  obtain ⟨hlength, rfl⟩ := word32_natCast_eq_ok_iff.mp hsize
  refine ⟨_, _, body, rfl, rfl, hstart, hlength, hbody, ?_⟩
  rw [← Except.ok.inj hc]
  rfl

end Parts

namespace Object

/-- Blaming the members of a list for their faults changes no chunk. -/
theorem concat_blame_eq_ok_iff {α : Type} {kind : EntityKind} {name : α → String}
    {f : Nat → α → Except AssembleFault Chunk} {loc : Nat} {as : List α} {c : Chunk} :
    Chunk.concat (fun loc a => blame kind (name a) (f loc a)) loc as = .ok c ↔
      Chunk.concat f loc as = .ok c := by
  induction as generalizing loc c with
  | nil => simp
  | cons a rest ih => simp only [Chunk.concat_cons_eq_ok_iff, blame_eq_ok_iff, ih]

/-- An object holds the chunk of the functions and the chunk of the data objects. -/
theorem assemble_eq_ok {p : Profile} {u : CodeUnit} {obj : Object} (h : assemble p u = .ok obj) :
    ∃ text data, Chunk.concat (funcChunk p) 0 u.funcs = .ok text ∧
      Chunk.concat (dataChunk p) 0 u.data = .ok data ∧
      obj = { unit := u.name, format := p.format.name, arch := p.arch.name
              pointerSize := UInt8.ofNat p.pointerSize
              sections := (if u.funcs.isEmpty then [] else [sectionOf p.textSection text]) ++
                (if u.data.isEmpty then [] else [sectionOf p.dataSection data])
              symbols := text.symbols ++ data.symbols ++
                undefinedSymbols (text.symbols ++ data.symbols) (references text data)
              unwind := text.unwind } := by
  simp only [assemble, bind_eq_ok_iff, concat_blame_eq_ok_iff] at h
  obtain ⟨text, htext, data, hdata, hobj⟩ := h
  exact ⟨text, data, htext, hdata, (Except.ok.inj hobj).symm⟩

/-- The sections of an object are filled with the chunks of the functions and of the data objects. -/
theorem sections_of_assemble {p : Profile} {u : CodeUnit} {obj : Object}
    (h : assemble p u = .ok obj) {s : Section} (hs : s ∈ obj.sections) :
    (∃ text, Chunk.concat (funcChunk p) 0 u.funcs = .ok text ∧ s = sectionOf p.textSection text) ∨
      ∃ data, Chunk.concat (dataChunk p) 0 u.data = .ok data ∧ s = sectionOf p.dataSection data := by
  obtain ⟨text, data, htext, hdata, rfl⟩ := assemble_eq_ok h
  rcases List.mem_append.mp hs with hs | hs
  · refine .inl ⟨text, htext, ?_⟩
    split at hs
    · cases hs
    · exact List.mem_singleton.mp hs
  · refine .inr ⟨data, hdata, ?_⟩
    split at hs
    · cases hs
    · exact List.mem_singleton.mp hs

/-- The section of code of an object is the chunk of its functions. -/
theorem section?_textSection {p : Profile} {u : CodeUnit} {obj : Object}
    (h : assemble p u = .ok obj) (hfuncs : u.funcs ≠ []) :
    ∃ text, Chunk.concat (funcChunk p) 0 u.funcs = .ok text ∧
      obj.section? p.textSection = some (sectionOf p.textSection text) := by
  obtain ⟨text, data, htext, -, rfl⟩ := assemble_eq_ok h
  refine ⟨text, htext, ?_⟩
  simp [section?, sectionOf, hfuncs]

/-- The section of data of an object is the chunk of its data objects. -/
theorem section?_dataSection {p : Profile} {u : CodeUnit} {obj : Object}
    (h : assemble p u = .ok obj) (hne : p.textSection ≠ p.dataSection) (hdata : u.data ≠ []) :
    ∃ data, Chunk.concat (dataChunk p) 0 u.data = .ok data ∧
      obj.section? p.dataSection = some (sectionOf p.dataSection data) := by
  obtain ⟨text, data, -, hconcat, rfl⟩ := assemble_eq_ok h
  refine ⟨data, hconcat, ?_⟩
  by_cases hfuncs : u.funcs = []
  · simp [section?, sectionOf, hdata, hfuncs]
  · simp [section?, sectionOf, hdata, hfuncs, hne]

end Object

end CodeEmission
