import CodeEmission.Proofs.CodeUnit.WellFormed
import CodeEmission.Proofs.Object.Layout

/-!
# When a Unit Can Be Assembled

The offsets and sizes in an object are words of 32 bits, and so are the fields that the linker fills
and the entries of jump tables. `CodeUnit.Fits` says, of the layout as it is computed from the unit
alone and in unbounded numbers, that all of them fit. A unit that passes the checks is assembled
exactly when it fits and has machine code, with room for the symbol fields.

* `Chunk.exists_concat` and `Chunk.exists_of_concat`: a list has a chunk when each member has one at
  its place.
* `exists_funcChunk` and `exists_dataChunk`: what fits is assembled.
* `fits_of_funcChunk` and `fits_of_dataChunk`: what was assembled fits.
* `Object.exists_assemble_iff`: the same for the object of a unit.
-/

namespace CodeEmission

/-! ## What has to fit -/

/-- The four bytes of the symbol field lie in the machine code. -/
def Inst.HasRoom (inst : Inst) : Prop :=
  0 ≤ inst.fieldAt inst.code.length ∧ inst.fieldAt inst.code.length + 4 ≤ inst.code.length

/-- There is machine code, and room in it for the symbol field if there has to be one. -/
structure Inst.IsEncoded (inst : Inst) : Prop where
  encoding : inst.encoding ≠ ""
  room : inst.symbolic?.isSome → inst.HasRoom

/-- Where a value at an offset ends. -/
def Datum.next (loc : Nat) (v : Datum) : Nat :=
  loc + v.image.length

/-- The offsets and sizes that are written for a function, which comes after `loc`, are words, the
distances in its jump tables with a sign. -/
structure Func.Fits (loc : Nat) (f : Func) : Prop where
  /-- The symbols of the function, of its labels and of its jump tables. -/
  symbols : ∀ e ∈ f.symbolExtents loc, e.start < UInt32.size ∧ e.size < UInt32.size
  /-- The fields of instructions that the linker fills. -/
  fields : ∀ place inst, (place, inst) ∈ placedFrom Inst.next (f.start loc) f.insts →
    inst.symbolic?.isSome → (place : Int) + inst.fieldAt inst.code.length < UInt32.size
  /-- The entries of jump tables. -/
  entries : ∀ place t, (place, t) ∈ placedFrom JumpTable.next (f.codePiece loc).stop f.jumpTables →
    ∀ target ∈ t.targets,
      Int32.minValue.toInt ≤ (Extent.placeOf (f.labelExtents loc) target : Int) - alignUp 4 place ∧
        (Extent.placeOf (f.labelExtents loc) target : Int) - alignUp 4 place ≤ Int32.maxValue.toInt

/-- The offsets and sizes that are written for a data object, which comes after `loc`, are words. -/
structure DataObject.Fits (loc : Nat) (d : DataObject) : Prop where
  start : (d.piece loc).start < UInt32.size
  size : d.image.length < UInt32.size
  /-- The fields of values that the linker fills. -/
  fields : ∀ place v, (place, v) ∈ placedFrom Datum.next (d.piece loc).start d.values →
    v.sym ≠ "" → place < UInt32.size

/-- Everything that an object of the unit has to say in 32 bits fits. -/
structure CodeUnit.Fits (u : CodeUnit) : Prop where
  funcs : ∀ loc f, (loc, f) ∈ u.placedFuncs → f.Fits loc
  data : ∀ loc d, (loc, d) ∈ placedFrom DataObject.next 0 u.data → d.Fits loc

/-! ## Lists -/

section Lists

variable {α : Type} {next : Nat → α → Nat} {loc : Nat}

/-- A list has a chunk when every member has one at its place. -/
theorem Chunk.exists_concat {ε : Type} {f : Nat → α → Except ε Chunk}
    (hnext : ∀ loc a piece, f loc a = .ok piece → loc + piece.bytes.length = next loc a)
    {as : List α} (h : ∀ place a, (place, a) ∈ placedFrom next loc as →
      ∃ piece, f place a = .ok piece) : ∃ c, concat f loc as = .ok c := by
  induction as generalizing loc with
  | nil => exact ⟨{}, rfl⟩
  | cons a rest ih =>
    rw [placedFrom] at h
    obtain ⟨piece, hpiece⟩ := h loc a List.mem_cons_self
    obtain ⟨later, hlater⟩ := ih fun place b hb => h place b (List.mem_cons_of_mem _ hb)
    rw [← hnext loc a piece hpiece] at hlater
    exact ⟨_, concat_cons_eq_ok_iff.mpr ⟨piece, later, hpiece, hlater, rfl⟩⟩

/-- What a member of a list contributes stands at its place. -/
theorem Chunk.exists_piece_of_placed {ε : Type} {f : Nat → α → Except ε Chunk}
    (hnext : ∀ loc a piece, f loc a = .ok piece → loc + piece.bytes.length = next loc a)
    {as : List α} {c : Chunk} (h : concat f loc as = .ok c) {place : Nat} {a : α}
    (hplaced : (place, a) ∈ placedFrom next loc as) :
    ∃ before piece after : Chunk, f place a = .ok piece ∧
      c = before.append (piece.append after) ∧ loc + before.bytes.length = place := by
  obtain ⟨early, late, rfl, rfl⟩ := exists_split_of_mem_placedFrom hplaced
  obtain ⟨before, piece, after, hbefore, hpiece, -, rfl⟩ := concat_split_eq_ok h
  have hend := end_of_concat hnext hbefore
  rw [hend] at hpiece
  exact ⟨before, piece, after, hpiece, rfl, hend⟩

/-- Every member of a list with a chunk has one at its place. -/
theorem Chunk.exists_of_concat {ε : Type} {f : Nat → α → Except ε Chunk}
    (hnext : ∀ loc a piece, f loc a = .ok piece → loc + piece.bytes.length = next loc a)
    {as : List α} {c : Chunk} (h : concat f loc as = .ok c) {place : Nat} {a : α}
    (hplaced : (place, a) ∈ placedFrom next loc as) : ∃ piece, f place a = .ok piece := by
  obtain ⟨-, piece, -, hpiece, -⟩ := exists_piece_of_placed hnext h hplaced
  exact ⟨piece, hpiece⟩

theorem mem_of_mem_placedFrom {as : List α} {place : Nat} {a : α}
    (h : (place, a) ∈ placedFrom next loc as) : a ∈ as := by
  obtain ⟨before, after, rfl, -⟩ := exists_split_of_mem_placedFrom h
  simp

theorem exists_mem_placedFrom (next : Nat → α → Nat) (loc : Nat) {as : List α} {a : α} (h : a ∈ as) :
    ∃ place, (place, a) ∈ placedFrom next loc as := by
  have hplaces : (placedFrom next loc as).map Prod.snd = as := map_snd_placedFrom as
  rw [← hplaces] at h
  obtain ⟨⟨place, _⟩, hplaced, rfl⟩ := List.mem_map.mp h
  exact ⟨place, hplaced⟩

/-- A numbered thing lies where the thing lies. -/
theorem mem_placedFrom_of_zipIdx {as : List α} {i place : Nat} {x : α × Nat}
    (h : (place, x) ∈ placedFrom (fun loc (x : α × Nat) => next loc x.1) loc (as.zipIdx i)) :
    (place, x.1) ∈ placedFrom next loc as := by
  induction as generalizing loc i with
  | nil => cases h
  | cons a rest ih =>
    rw [List.zipIdx_cons, placedFrom, List.mem_cons] at h
    rcases h with hhead | hrest
    · obtain ⟨rfl, rfl⟩ := Prod.mk.inj hhead
      exact List.mem_cons_self
    · exact List.mem_cons_of_mem _ (ih hrest)

/-- Things lie where they lie when they are numbered. -/
theorem exists_mem_placedFrom_zipIdx {as : List α} {place : Nat} {a : α}
    (h : (place, a) ∈ placedFrom next loc as) (k : Nat) : ∃ i, (place, (a, i)) ∈
      placedFrom (fun loc (x : α × Nat) => next loc x.1) loc (as.zipIdx k) := by
  induction as generalizing loc k with
  | nil => cases h
  | cons b rest ih =>
    rw [List.zipIdx_cons]
    rw [placedFrom, List.mem_cons] at h
    rcases h with hhead | hrest
    · obtain ⟨rfl, rfl⟩ := Prod.mk.inj hhead
      exact ⟨k, List.mem_cons_self⟩
    · obtain ⟨i, hi⟩ := ih hrest (k + 1)
      exact ⟨i, List.mem_cons_of_mem _ hi⟩

end Lists

/-! ## Functions -/

theorem Inst.size_eq_length_code (inst : Inst) : inst.size = inst.code.length := by
  unfold Inst.size Inst.code
  cases decodeEncoding inst.encoding <;> rfl

/-- Instructions end one after another where their machine code ends. -/
theorem foldl_next_insts (insts : List Inst) (loc : Nat) :
    insts.foldl Inst.next loc = loc + (insts.flatMap Inst.code).length := by
  induction insts generalizing loc with
  | nil => rfl
  | cons inst rest ih =>
    rw [List.foldl_cons, ih, List.flatMap_cons, List.length_append, Inst.next,
      Inst.size_eq_length_code, Nat.add_assoc]

/-- A placed instruction ends before the body does. -/
theorem end_le_of_mem_placedFrom {insts : List Inst} {loc place : Nat} {inst : Inst}
    (h : (place, inst) ∈ placedFrom Inst.next loc insts) :
    place + inst.code.length ≤ loc + (insts.flatMap Inst.code).length := by
  obtain ⟨before, after, rfl, rfl⟩ := exists_split_of_mem_placedFrom h
  rw [foldl_next_insts, List.flatMap_append, List.flatMap_cons, List.length_append,
    List.length_append]
  omega

/-- An instruction with room for its symbol field has a place for it, and it is computed without
wrapping. -/
theorem Inst.HasRoom.exists_place {inst : Inst} (h : inst.HasRoom)
    (hlength : inst.code.length < 2 * UInt32.size) :
    ∃ fix, fixupPlace? inst.fixupOffset inst.code.length = some fix ∧
      fix.toInt = inst.fieldAt inst.code.length := by
  have hword : UInt32.size = 4294967296 := rfl
  have hlengthInt : (Int64.ofNat inst.code.length).toInt = inst.code.length :=
    Int64.toInt_ofNat_of_lt (by omega)
  have hfour : (4 : Int64).toInt = 4 := rfl
  obtain ⟨hlow, hhigh⟩ := h
  unfold fixupPlace?
  dsimp only
  -- the place is computed in 64 bits, where the length is small enough for every step
  generalize hplace : (if inst.fixupOffset = 0 then Int64.ofNat inst.code.length - 4
    else inst.fixupOffset) = place
  have hfield : place.toInt = inst.fieldAt inst.code.length := by
    rw [← hplace, Inst.fieldAt]
    split
    · rw [Int64.toInt_sub, hlengthInt, hfour, Int.bmod_eq_of_le (by omega) (by omega)]
    · rfl
  have hroom : ¬(place < 0 ∨ Int64.ofNat inst.code.length < place + 4) := by
    rw [not_or, Int64.not_lt, Int64.not_lt, Int64.le_iff_toInt_le, Int64.le_iff_toInt_le,
      hlengthInt, Int64.toInt_zero, Int64.toInt_add, hfour, hfield,
      Int.bmod_eq_of_le (by omega) (by omega)]
    exact ⟨hlow, hhigh⟩
  exact ⟨place, if_neg hroom, hfield⟩

section Functions

variable {p : Profile} {loc : Nat}

/-- A number in the range of words has a word. -/
theorem exists_word32 {n : Int} (hlow : 0 ≤ n) (hhigh : n < UInt32.size) : ∃ w, word32 n = .ok w := by
  have hword : UInt32.size = 4294967296 := rfl
  rw [word32, if_pos ⟨hlow, by omega⟩]
  exact ⟨_, rfl⟩

/-- A symbol at a word with a size of a word is placed. -/
theorem exists_symbolAt {section_ name : String} {kind : SymbolKind} {binding : Binding}
    {start size : Nat} (hstart : start < UInt32.size) (hsize : size < UInt32.size) :
    ∃ s, symbolAt section_ name kind binding start size = .ok s :=
  ⟨_, symbolAt_eq_ok_iff.mpr ⟨hstart, hsize, rfl⟩⟩

/-- An instruction whose field has room, at a word, is relocated. -/
theorem exists_instRelocs {inst : Inst} (i : Nat) (hroom : inst.symbolic?.isSome → inst.HasRoom)
    (hbound : loc + inst.code.length < 2 * UInt32.size)
    (hfield : inst.symbolic?.isSome → (loc : Int) + inst.fieldAt inst.code.length < UInt32.size) :
    ∃ relocs, instRelocs p i loc inst inst.code = .ok relocs := by
  unfold instRelocs
  cases hop : inst.symbolic? with
  | none => exact ⟨_, rfl⟩
  | some op =>
    have hsome : inst.symbolic?.isSome := by rw [hop]; rfl
    obtain ⟨fix, hfix, hplace⟩ := (hroom hsome).exists_place (by omega)
    have hnonneg := (hroom hsome).1
    have hhigh := hfield hsome
    have hword : UInt32.size = 4294967296 := rfl
    -- both summands are words or less, so the sum in 64 bits is the sum
    have hsum : (Int64.ofNat loc + fix).toInt = loc + inst.fieldAt inst.code.length := by
      rw [Int64.toInt_add, Int64.toInt_ofNat_of_lt (by omega), hplace,
        Int.bmod_eq_of_le (by omega) (by omega)]
    obtain ⟨offset, hoffset⟩ := exists_word32 (n := (Int64.ofNat loc + fix).toInt) (by omega) (by omega)
    simp only [hfix, operandReloc, hoffset]
    exact ⟨_, rfl⟩

/-- An encoded instruction is assembled where its label and its field fit. -/
theorem exists_instChunk {inst : Inst} (i : Nat) {locals : List String}
    (hwell : inst.WellFormed locals) (hencoded : inst.IsEncoded)
    (hbound : loc + inst.code.length < 2 * UInt32.size)
    (hlabel : inst.label ≠ "" → loc < UInt32.size)
    (hfield : inst.symbolic?.isSome → (loc : Int) + inst.fieldAt inst.code.length < UInt32.size) :
    ∃ c, instChunk p loc (inst, i) = .ok c := by
  obtain ⟨bytes, hdecode, -⟩ := hwell.encoding hencoded.encoding
  have hcode : inst.code = bytes := by rw [Inst.code, hdecode]
  obtain ⟨relocs, hrelocs⟩ := exists_instRelocs (p := p) i hencoded.room hbound hfield
  rw [hcode] at hrelocs
  unfold instChunk
  by_cases hempty : inst.label = ""
  · simp only [hempty, if_true, hencoded.encoding, if_false, hdecode, hrelocs]
    exact ⟨_, rfl⟩
  · obtain ⟨s, hs⟩ : ∃ s, symbolAt p.textSection inst.label .label .internal loc 0 = .ok s :=
      exists_symbolAt (hlabel hempty) (by decide)
    simp only [hempty, if_false, hs, Except.map, hencoded.encoding, hdecode, hrelocs]
    exact ⟨_, rfl⟩

/-- The body of a function that fits is assembled. -/
theorem exists_body {f : Func} (hwell : f.WellFormed) (hencoded : ∀ inst ∈ f.insts, inst.IsEncoded)
    (hfits : f.Fits loc) :
    ∃ body, Chunk.concat (instChunk p) (f.start loc) f.insts.zipIdx = .ok body := by
  obtain ⟨hstart, hsize⟩ := hfits.symbols _ List.mem_cons_self
  refine Chunk.exists_concat (fun _ _ _ => end_of_instChunk) fun place numbered hplaced => ?_
  obtain ⟨inst, i⟩ := numbered
  have hplaced : (place, inst) ∈ placedFrom Inst.next (f.start loc) f.insts :=
    mem_placedFrom_of_zipIdx hplaced
  have hmem := mem_of_mem_placedFrom hplaced
  -- the function starts at a word and its code is no longer than a word
  have hend := end_le_of_mem_placedFrom hplaced
  have hbound : place + inst.code.length < 2 * UInt32.size := by
    simp only [Piece.extent, Func.codePiece, Func.code] at hstart hsize
    omega
  refine exists_instChunk i (hwell.insts inst hmem) (hencoded inst hmem) hbound (fun hlabel => ?_)
    (hfits.fields place inst hplaced)
  -- the label of the instruction is among the symbols of the function
  have hextent : Extent.label inst.label place ∈ f.symbolExtents loc := by
    refine List.mem_cons_of_mem _ (List.mem_append_left _ (List.mem_flatMap.mpr
      ⟨(place, inst), hplaced, ?_⟩))
    simp [Inst.labelExtents, Inst.labels, hlabel]
  exact (hfits.symbols _ hextent).1

/-- The entries of a jump table are written where its targets are labels at a distance that fits. -/
theorem exists_tableEntries {body : List Symbol} {base : Nat} {targets : List String}
    (hlabels : ∀ target ∈ targets, target ∈ body.map Symbol.name)
    (hfits : ∀ target ∈ targets,
      Int32.minValue.toInt ≤ (Extent.placeOf (body.map Symbol.extent) target : Int) - base ∧
        (Extent.placeOf (body.map Symbol.extent) target : Int) - base ≤ Int32.maxValue.toInt) :
    ∃ entries, tableEntries body base targets = .ok entries := by
  induction targets with
  | nil => exact ⟨[], rfl⟩
  | cons target rest ih =>
    obtain ⟨hlabel, hlabels⟩ := List.forall_mem_cons.mp hlabels
    obtain ⟨hfit, hfits⟩ := List.forall_mem_cons.mp hfits
    obtain ⟨later, hlater⟩ := ih hlabels hfits
    have hfound : (labelOffset? body target).isSome := by
      obtain ⟨s, hs, hname⟩ := List.mem_map.mp hlabel
      rw [labelOffset?, Option.isSome_map, List.find?_isSome]
      exact ⟨s, List.mem_reverse.mpr hs, by simpa using hname⟩
    obtain ⟨offset, hoffset⟩ := Option.isSome_iff_exists.mp hfound
    rw [labelOffset?_eq_some hoffset] at hfit
    rw [tableEntries, hoffset]
    simp only [hlater, if_pos hfit]
    exact ⟨_, rfl⟩

/-- A jump table is assembled where it starts at a word and its entries fit. -/
theorem exists_tableChunk {body : List Symbol} {t : JumpTable} (hstart : alignUp 4 loc < UInt32.size)
    (hlabels : ∀ target ∈ t.targets, target ∈ body.map Symbol.name)
    (hfits : ∀ target ∈ t.targets,
      Int32.minValue.toInt ≤ (Extent.placeOf (body.map Symbol.extent) target : Int) -
          alignUp 4 loc ∧
        (Extent.placeOf (body.map Symbol.extent) target : Int) - alignUp 4 loc ≤
          Int32.maxValue.toInt) :
    ∃ c, tableChunk p body loc t = .ok c := by
  obtain ⟨entries, hentries⟩ := exists_tableEntries hlabels hfits
  obtain ⟨s, hs⟩ : ∃ s, symbolAt p.textSection t.label .label .internal (alignUp 4 loc) 0 = .ok s :=
    exists_symbolAt hstart (by decide)
  simp only [tableChunk, add_length_padding, hs, hentries]
  exact ⟨_, rfl⟩

/-- An alignment that passes the checks is a word, so the fill bytes before an entity exist. -/
theorem padChunk_of_isAlignment {align : Int64} (h : isAlignment align = true) (loc : Nat)
    (fill : UInt8) : padChunk align loc fill =
      .ok { bytes := padding align.toInt.toNat loc fill, align := max 1 align.toInt.toNat } := by
  obtain ⟨k, hk, hpower⟩ := exists_power_of_isAlignment h
  have hle : 2 ^ k < UInt32.size := Nat.pow_lt_pow_right (by decide) hk
  have hword : UInt32.size = 4294967296 := rfl
  refine padChunk_eq_ok_iff.mpr ⟨?_, rfl⟩
  omega

/-- A function that fits is assembled. -/
theorem exists_funcChunk {f : Func} (hwell : f.WellFormed)
    (hencoded : ∀ inst ∈ f.insts, inst.IsEncoded) (hfits : f.Fits loc) :
    ∃ c, funcChunk p loc f = .ok c := by
  obtain ⟨body, hbody⟩ := exists_body (p := p) hwell hencoded hfits
  obtain ⟨hcode, -, hextents⟩ := body_of_concat hbody
  have hlabels : body.symbols.map Symbol.extent = f.labelExtents loc := hextents
  obtain ⟨hstart, hsize⟩ := hfits.symbols _ List.mem_cons_self
  have hlength : body.bytes.length < UInt32.size := by
    rw [hcode]
    exact hsize
  obtain ⟨opening, hopening⟩ : ∃ s, symbolAt p.textSection f.emittedName .func
      (.ofLinkage f.linkage) (f.start loc) 0 = .ok s := exists_symbolAt hstart (by decide)
  -- tables come after the code, and find their targets among the labels of the body
  obtain ⟨tables, htables⟩ : ∃ tables, Chunk.concat (tableChunk p body.symbols)
      (f.start loc + body.bytes.length) f.jumpTables = .ok tables := by
    refine Chunk.exists_concat (fun _ _ _ => end_of_tableChunk) fun place t hplaced => ?_
    rw [hcode] at hplaced
    have hextent : Extent.label t.label (alignUp 4 place) ∈ f.symbolExtents loc := by
      refine List.mem_cons_of_mem _ (List.mem_append_right _ ?_)
      rw [Func.tableExtents, Func.tablePieces, List.map_map]
      exact List.mem_map.mpr ⟨(place, t), hplaced, rfl⟩
    refine exists_tableChunk (hfits.symbols _ hextent).1 (fun target htarget => ?_) ?_
    · have hnames : body.symbols.map Symbol.name = f.labels := names_of_body hbody
      rw [hnames]
      exact (hwell.tables t (mem_of_mem_placedFrom hplaced)).targets target htarget
    · rw [hlabels]
      exact hfits.entries place t hplaced
  obtain ⟨size, hword⟩ := exists_word32 (Int.natCast_nonneg _) (Int.ofNat_lt.mpr hlength)
  have hplace : loc + (padding f.align.toInt.toNat loc p.textFill).length = f.start loc :=
    add_length_padding _ _ _
  simp only [funcChunk, padChunk_of_isAlignment hwell.align, bind, Except.bind, hplace, hopening,
    hbody, hword, htables]
  exact ⟨_, rfl⟩

/-- An assembled instruction has machine code. -/
theorem encoding_ne_empty_of_instChunk {inst : Inst} {i : Nat} {c : Chunk}
    (h : instChunk p loc (inst, i) = .ok c) : inst.encoding ≠ "" := by
  intro hempty
  unfold instChunk at h
  dsimp only at h
  split at h
  · cases h
  · rw [if_pos hempty] at h
    cases h

/-- The entries of an assembled jump table fit. -/
theorem fits_of_tableEntries {body : List Symbol} {base : Nat} {targets : List String}
    {entries : List UInt8} (h : tableEntries body base targets = .ok entries) :
    ∀ target ∈ targets,
      Int32.minValue.toInt ≤ (Extent.placeOf (body.map Symbol.extent) target : Int) - base ∧
        (Extent.placeOf (body.map Symbol.extent) target : Int) - base ≤ Int32.maxValue.toInt := by
  induction targets generalizing entries with
  | nil => exact nofun
  | cons target rest ih =>
    obtain ⟨offset, later, hoffset, hfits, hlater, -⟩ := tableEntries_cons_eq_ok h
    rw [← labelOffset?_eq_some hoffset] at hfits
    exact List.forall_mem_cons.mpr ⟨hfits, ih hlater⟩

/-- A function that was assembled fits, and its instructions are encoded. -/
theorem fits_of_funcChunk {f : Func} {c : Chunk} (hfaults : f.faults = [])
    (h : funcChunk p loc f = .ok c) : f.Fits loc ∧ ∀ inst ∈ f.insts, inst.IsEncoded := by
  have hextents := (lays_funcChunk hfaults h).2
  obtain ⟨fill, start, body, tables, rfl, hstart, hlow, hlength, hbody, htables, -⟩ :=
    funcChunk_eq_ok h
  rw [add_length_padding] at hstart
  subst hstart
  obtain ⟨hcode, -, hlabels⟩ := body_of_concat hbody
  have hlabels : body.symbols.map Symbol.extent = f.labelExtents loc := hlabels
  -- what is known of each instruction from its own chunk
  have hinst : ∀ place inst, (place, inst) ∈ placedFrom Inst.next (f.start loc) f.insts →
      inst.IsEncoded ∧ (inst.symbolic?.isSome →
        (place : Int) + inst.fieldAt inst.code.length < UInt32.size) := by
    intro place inst hplaced
    have hend := end_le_of_mem_placedFrom hplaced
    rw [← hcode] at hend
    obtain ⟨i, hnumbered⟩ := exists_mem_placedFrom_zipIdx hplaced 0
    obtain ⟨piece, hpiece⟩ := Chunk.exists_of_concat (fun _ _ _ => end_of_instChunk) hbody hnumbered
    obtain ⟨bytes, relocs, hbytes, hrelocs, -⟩ := instChunk_eq_ok hpiece
    have hbytes : inst.code = bytes := by rw [Inst.code, hbytes]
    -- the code starts at a word and is no longer than a word, so nothing wrapped
    have hbound : place + bytes.length < 2 * UInt32.size := by
      rw [← hbytes]
      simp only [Func.start] at hend
      omega
    rcases instRelocs_eq_ok hbound hrelocs with ⟨hnone, -⟩ | ⟨op, offset, -, hnonneg, hroom, hoffset, -⟩
    · refine ⟨⟨encoding_ne_empty_of_instChunk hpiece, ?_⟩, ?_⟩ <;> simp [hnone]
    · rw [← hbytes] at hnonneg hroom hoffset
      have hlt := offset.toNat_lt_size
      exact ⟨⟨encoding_ne_empty_of_instChunk hpiece, fun _ => ⟨hnonneg, hroom⟩⟩, fun _ => by omega⟩
  refine ⟨⟨fun e he => ?_, fun place inst hplaced => (hinst place inst hplaced).2,
    fun place t hplaced => ?_⟩, fun inst hmem => ?_⟩
  · -- the extents are those of symbols, whose offsets and sizes are words by their type
    rw [← hextents] at he
    obtain ⟨s, -, rfl⟩ := List.mem_map.mp he
    exact ⟨s.offset.toNat_lt_size, s.size.toNat_lt_size⟩
  · rw [hcode] at htables
    obtain ⟨piece, hpiece⟩ := Chunk.exists_of_concat (fun _ _ _ => end_of_tableChunk) htables hplaced
    obtain ⟨entries, hentries, -⟩ := tableChunk_eq_ok hpiece
    rw [add_length_padding] at hentries
    rw [← hlabels]
    exact fits_of_tableEntries hentries
  · obtain ⟨place, hplaced⟩ := exists_mem_placedFrom Inst.next (f.start loc) hmem
    exact (hinst place inst hplaced).1

end Functions

/-! ## Data objects -/

section Data

variable {p : Profile} {loc : Nat}

/-- A well-formed value is assembled where its field, if it has one, lies at a word. -/
theorem exists_valueChunk {v : Datum} (i : Nat) (hwell : v.WellFormed)
    (hfield : v.sym ≠ "" → loc < UInt32.size) : ∃ c, valueChunk loc (v, i) = .ok c := by
  unfold valueChunk
  by_cases hname : v.sym = ""
  · have hbytes : (integerBytes? v.size v.int).isSome := by
      unfold integerBytes?
      rcases hwell.1 with hsize | hsize | hsize | hsize <;> simp [hsize]
    obtain ⟨bytes, hbytes⟩ := Option.isSome_iff_exists.mp hbytes
    simp only [hname, if_true, hbytes]
    exact ⟨_, rfl⟩
  · obtain ⟨offset, hoffset⟩ := exists_word32 (Int.natCast_nonneg _) (Int.ofNat_lt.mpr (hfield hname))
    -- a value of at most eight bytes is far from the largest block of zeros
    have hsize : ¬(v.size < 0 ∨ 0x800000000000 < v.size.toInt) := by
      rcases hwell.1 with hsize | hsize | hsize | hsize <;> rw [hsize] <;> decide
    simp only [hname, if_false, hoffset, hsize]
    exact ⟨_, rfl⟩

theorem end_of_valueChunk {numbered : Datum × Nat} {c : Chunk}
    (h : valueChunk loc numbered = .ok c) : loc + c.bytes.length = numbered.1.next loc := by
  obtain ⟨v, i⟩ := numbered
  rw [(image_of_valueChunk h).1]
  rfl

theorem end_of_dataChunk {d : DataObject} {c : Chunk} (h : dataChunk p loc d = .ok c) :
    loc + c.bytes.length = d.next loc := by
  obtain ⟨fill, start, body, rfl, -, -, -, hbody, rfl⟩ := dataChunk_eq_ok h
  have himage := (Chunk.bytes_of_numbered (fun _ _ _ _ => image_of_valueChunk) hbody).1
  have hplace : loc + (padding d.align.toInt.toNat loc 0).length = (d.piece loc).start :=
    add_length_padding _ _ _
  rw [DataObject.next, Piece.stop, ← hplace]
  simp only [Chunk.bytes_append, List.append_nil, List.length_append, himage]
  exact (Nat.add_assoc _ _ _).symm

/-- A data object that fits is assembled. -/
theorem exists_dataChunk {d : DataObject} (hwell : d.WellFormed) (hfits : d.Fits loc) :
    ∃ c, dataChunk p loc d = .ok c := by
  obtain ⟨body, hbody⟩ : ∃ body, Chunk.concat valueChunk (d.piece loc).start d.values.zipIdx =
      .ok body := by
    refine Chunk.exists_concat (fun _ _ _ => end_of_valueChunk) fun place numbered hplaced => ?_
    obtain ⟨v, i⟩ := numbered
    have hplaced : (place, v) ∈ placedFrom Datum.next (d.piece loc).start d.values :=
      mem_placedFrom_of_zipIdx hplaced
    exact exists_valueChunk i (hwell.values v (mem_of_mem_placedFrom hplaced))
      (hfits.fields place v hplaced)
  have himage := (Chunk.bytes_of_numbered (fun _ _ _ _ => image_of_valueChunk) hbody).1
  have hlength : body.bytes.length < UInt32.size := by
    rw [himage]
    exact hfits.size
  obtain ⟨opening, hopening⟩ : ∃ s, symbolAt p.dataSection d.emittedName .data
      (.ofLinkage d.linkage) (d.piece loc).start 0 = .ok s := exists_symbolAt hfits.start (by decide)
  obtain ⟨size, hword⟩ := exists_word32 (Int.natCast_nonneg _) (Int.ofNat_lt.mpr hlength)
  have hplace : loc + (padding d.align.toInt.toNat loc 0).length = (d.piece loc).start :=
    add_length_padding _ _ _
  simp only [dataChunk, padChunk_of_isAlignment hwell.align, bind, Except.bind, hplace, hopening,
    hbody, hword]
  exact ⟨_, rfl⟩

/-- A data object that was assembled fits. -/
theorem fits_of_dataChunk {d : DataObject} {c : Chunk} (h : dataChunk p loc d = .ok c) :
    d.Fits loc := by
  obtain ⟨fill, start, body, rfl, hstart, hlow, hlength, hbody, -⟩ := dataChunk_eq_ok h
  rw [add_length_padding] at hstart
  subst hstart
  have himage := (Chunk.bytes_of_numbered (fun _ _ _ _ => image_of_valueChunk) hbody).1
  rw [himage] at hlength
  refine ⟨hlow, hlength, fun place v hplaced hname => ?_⟩
  obtain ⟨i, hnumbered⟩ := exists_mem_placedFrom_zipIdx hplaced 0
  obtain ⟨piece, hpiece⟩ := Chunk.exists_of_concat (fun _ _ _ => end_of_valueChunk) hbody hnumbered
  rcases valueChunk_eq_ok hpiece with ⟨hempty, -⟩ | ⟨-, hplace, -⟩
  · exact absurd hempty hname
  · exact hplace

end Data

/-! ## Objects -/

/-- A unit that passes the checks has an object exactly when its instructions have machine code, with
room for their symbol fields, and everything fits. -/
theorem Object.exists_assemble_iff {p : Profile} {u : CodeUnit} (hverify : verify (some u) = .ok ()) :
    (∃ obj, assemble p u = .ok obj) ↔
      (∀ f ∈ u.funcs, ∀ inst ∈ f.insts, inst.IsEncoded) ∧ u.Fits := by
  constructor
  · rintro ⟨obj, hobj⟩
    obtain ⟨text, data, htext, hdata, -⟩ := assemble_eq_ok hobj
    have hfuncs : ∀ loc f, (loc, f) ∈ u.placedFuncs →
        f.Fits loc ∧ ∀ inst ∈ f.insts, inst.IsEncoded := by
      intro loc f hplaced
      obtain ⟨piece, hpiece⟩ := Chunk.exists_of_concat (fun _ _ _ => end_of_funcChunk) htext hplaced
      exact fits_of_funcChunk (func_faults_of_verify hverify (mem_of_mem_placedFrom hplaced)) hpiece
    refine ⟨fun f hf => ?_, fun loc f hplaced => (hfuncs loc f hplaced).1, fun loc d hplaced => ?_⟩
    · obtain ⟨loc, hplaced⟩ := exists_mem_placedFrom Func.next 0 hf
      exact (hfuncs loc f hplaced).2
    · obtain ⟨piece, hpiece⟩ := Chunk.exists_of_concat (fun _ _ _ => end_of_dataChunk) hdata hplaced
      exact fits_of_dataChunk hpiece
  · rintro ⟨hencoded, hfits⟩
    obtain ⟨text, htext⟩ : ∃ text, Chunk.concat (funcChunk p) 0 u.funcs = .ok text := by
      refine Chunk.exists_concat (fun _ _ _ => end_of_funcChunk) fun loc f hplaced => ?_
      have hmem := mem_of_mem_placedFrom hplaced
      exact exists_funcChunk (Func.faults_eq_nil_iff.mp (func_faults_of_verify hverify hmem))
        (hencoded f hmem) (hfits.funcs loc f hplaced)
    obtain ⟨data, hdata⟩ : ∃ data, Chunk.concat (dataChunk p) 0 u.data = .ok data := by
      refine Chunk.exists_concat (fun _ _ _ => end_of_dataChunk) fun loc d hplaced => ?_
      have hmem := mem_of_mem_placedFrom hplaced
      exact exists_dataChunk (DataObject.faults_eq_nil_iff.mp (data_faults_of_verify hverify hmem))
        (hfits.data loc d hplaced)
    simp only [assemble, bind_eq_ok_iff, concat_blame_eq_ok_iff]
    exact ⟨_, text, htext, data, hdata, rfl⟩

end CodeEmission
