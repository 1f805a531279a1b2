import CodeEmission.Proofs.Object.Capacity
import CodeEmission.Proofs.Object.Linked
import CodeEmission.Proofs.Stage.Preservation

/-!
# Values of Eight Bytes in Halves

Where there is no directive for eight bytes, legalization splits values. The object of the unit is
then as before, but for the fields of addresses, which are four bytes wide instead of eight.

* `assemble_legalized_eq_ok_iff`: the object of a legalized unit is that of the unit, narrowed.
* `CodeUnit.placedValues_legalized`: the halves lie where the value lay, and all other values lie
  where they were.
* `Object.getElem?_linked_narrowed`: linking stores the same bytes, wherever addresses fit.
* `legalized_object_links_alike`: all of it together.
-/

namespace CodeEmission

namespace Chunk

/-- A chunk whose relocations have fields of four bytes. -/
def narrowed (c : Chunk) : Chunk :=
  { c with relocs := c.relocs.map Reloc.narrowed }

theorem narrowed_append (a b : Chunk) : (a.append b).narrowed = a.narrowed.append b.narrowed := by
  simp [narrowed, append]

theorem narrowed_eq_self {c : Chunk} (h : ∀ r ∈ c.relocs, r.kind ≠ .abs64) : c.narrowed = c := by
  have hrelocs : c.relocs.map Reloc.narrowed = c.relocs :=
    (List.map_congr_left fun r hr => Reloc.narrowed_eq_self (h r hr)).trans (List.map_id _)
  rw [narrowed, hrelocs]

section Concat

variable {α β ε : Type} {f : Nat → α → Except ε Chunk} {g : Nat → β → Except ε Chunk} {loc : Nat}
  {c : Chunk}

/-- The chunk of two lists is that of the first and then that of the second. -/
theorem concat_append_eq_ok_iff {as bs : List α} :
    concat f loc (as ++ bs) = .ok c ↔
      ∃ before after, concat f loc as = .ok before ∧
        concat f (loc + before.bytes.length) bs = .ok after ∧ c = before.append after := by
  refine ⟨concat_append_eq_ok, ?_⟩
  induction as generalizing loc c with
  | nil =>
    rintro ⟨before, after, hbefore, hafter, rfl⟩
    obtain rfl := concat_nil_eq_ok_iff.mp hbefore
    rw [empty_append (one_le_align_of_concat hafter)]
    exact hafter
  | cons a rest ih =>
    rintro ⟨before, after, hbefore, hafter, rfl⟩
    obtain ⟨piece, later, hpiece, hlater, rfl⟩ := concat_cons_eq_ok_iff.mp hbefore
    rw [bytes_append, List.length_append, ← Nat.add_assoc] at hafter
    exact concat_cons_eq_ok_iff.mpr ⟨piece, later.append after, hpiece,
      ih ⟨later, after, hlater, hafter, rfl⟩, append_assoc _ _ _⟩

/-- The chunk of one thing is its own. -/
theorem concat_singleton_eq_ok_iff {a : α}
    (halign : ∀ piece, f loc a = .ok piece → 1 ≤ piece.align) :
    concat f loc [a] = .ok c ↔ f loc a = .ok c := by
  have happend : ∀ piece, f loc a = .ok piece → piece.append {} = piece := by
    intro piece hpiece
    simp only [append, List.append_nil, Nat.max_eq_left (halign piece hpiece)]
  rw [concat_cons_eq_ok_iff]
  constructor
  · rintro ⟨piece, later, hpiece, hlater, rfl⟩
    rw [concat_nil_eq_ok_iff.mp hlater, happend piece hpiece]
    exact hpiece
  · intro hpiece
    exact ⟨c, {}, hpiece, rfl, (happend c hpiece).symm⟩

/-- If every member of a list is replaced by parts that have its chunk, narrowed, then the list is
replaced by one that has its chunk, narrowed. -/
theorem concat_flatMap_eq_ok_iff {parts : α → List β}
    (hparts : ∀ loc a c', concat g loc (parts a) = .ok c' ↔ ∃ c, f loc a = .ok c ∧ c' = c.narrowed)
    {as : List α} {c' : Chunk} :
    concat g loc (as.flatMap parts) = .ok c' ↔
      ∃ c, concat f loc as = .ok c ∧ c' = c.narrowed := by
  induction as generalizing loc c' with
  | nil => simp [narrowed]
  | cons a rest ih =>
    rw [List.flatMap_cons, concat_append_eq_ok_iff]
    simp only [hparts, ih, concat_cons_eq_ok_iff]
    constructor
    · rintro ⟨-, -, ⟨piece, hpiece, rfl⟩, ⟨later, hlater, rfl⟩, rfl⟩
      exact ⟨_, ⟨piece, later, hpiece, hlater, rfl⟩, (narrowed_append _ _).symm⟩
    · rintro ⟨-, ⟨piece, later, hpiece, hlater, rfl⟩, rfl⟩
      exact ⟨_, _, ⟨piece, hpiece, rfl⟩, ⟨later, hlater, rfl⟩, narrowed_append _ _⟩

end Concat

end Chunk

/-! ## Values -/

section Values

variable {loc i : Nat} {v : Datum} {c c' : Chunk}

/-- The number of a value is of use in messages only. -/
theorem valueChunk_eq_ok_iff_of_number (j : Nat) :
    valueChunk loc (v, i) = .ok c ↔ valueChunk loc (v, j) = .ok c := by
  unfold valueChunk
  dsimp only
  split
  · split <;> simp
  · exact Iff.rfl

theorem concat_zipIdx_eq_ok_iff {values : List Datum} :
    Chunk.concat valueChunk loc (values.zipIdx i) = .ok c ↔
      Chunk.concat (fun loc v => valueChunk loc (v, 0)) loc values = .ok c := by
  induction values generalizing loc i c with
  | nil => rfl
  | cons v rest ih =>
    simp only [List.zipIdx_cons, Chunk.concat_cons_eq_ok_iff, ih,
      valueChunk_eq_ok_iff_of_number (i := i) 0]

/-- An address in a field of four or eight bytes. -/
theorem valueChunk_symbol_eq_ok_iff (hsym : v.sym ≠ "") (hsize : v.size = 4 ∨ v.size = 8) :
    valueChunk loc (v, i) = .ok c ↔ loc < UInt32.size ∧
      c = { bytes := List.replicate v.size.toInt.toNat 0
            relocs := [{ offset := UInt32.ofNat loc
                         kind := if v.size = 8 then .abs64 else .abs32
                         symbol := v.sym, addend := v.int }] } := by
  have hpossible : ¬ (v.size < 0 ∨ 0x800000000000 < v.size.toInt) := by
    rcases hsize with hsize | hsize <;> rw [hsize] <;> decide
  simp only [valueChunk, if_neg hsym, word32_natCast, if_neg hpossible]
  by_cases hloc : loc < UInt32.size
  · simp only [hloc, if_true, Except.ok.injEq, true_and, eq_comm]
  · simp only [hloc, if_false, reduceCtorEq, false_and]

/-- An integer of eight bytes is its low half and then its high half. -/
theorem littleEndian_halves (n : Int64) :
    littleEndian 8 n.toUInt64.toNat =
      littleEndian 4 (Int64.ofNat (n.toUInt64.toNat % UInt32.size)).toUInt64.toNat ++
        littleEndian 4 (Int64.ofNat (n.toUInt64.toNat / UInt32.size)).toUInt64.toNat := by
  have hword : ∀ m : Nat, m < UInt32.size → (Int64.ofNat m).toUInt64.toNat = m := by
    intro m hm
    have hsize : UInt32.size = 4294967296 := rfl
    show (Int64.ofNat m).toBitVec.toNat = m
    rw [Int64.toBitVec_ofNat', BitVec.toNat_ofNat]
    omega
  have hlt := n.toUInt64.toNat_lt_size
  have hsize : UInt32.size = 256 ^ 4 := rfl
  rw [hword _ (Nat.mod_lt _ (by decide)), hword _ (Nat.div_lt_of_lt_mul (by omega)),
    littleEndian_add 4 4, ← littleEndian_mod 4 n.toUInt64.toNat, hsize]

/-- The halves of a value have its chunk, narrowed. -/
theorem concat_split_eq_ok_iff (loc : Nat) (v : Datum) (c' : Chunk) :
    Chunk.concat (fun loc v => valueChunk loc (v, 0)) loc v.split = .ok c' ↔
      ∃ c, valueChunk loc (v, 0) = .ok c ∧ c' = c.narrowed := by
  unfold Datum.split
  split
  next hsize =>
    rw [Chunk.concat_singleton_eq_ok_iff (f := fun loc v => valueChunk loc (v, 0))
      fun piece hpiece => Nat.le_of_eq (image_of_valueChunk hpiece).2.symm]
    -- nothing is narrowed in a value of another size
    have hsame : ∀ c, valueChunk loc (v, 0) = .ok c → c.narrowed = c := by
      intro c hc
      refine Chunk.narrowed_eq_self fun r hr => ?_
      rcases valueChunk_eq_ok hc with ⟨-, bytes, -, rfl⟩ | ⟨-, -, rfl⟩
      · cases hr
      · rw [List.mem_singleton.mp hr]
        simp [hsize]
    constructor
    · exact fun hc => ⟨c', hc, (hsame c' hc).symm⟩
    · rintro ⟨c, hc, rfl⟩
      rw [hsame c hc]
      exact hc
  next hsize =>
    have hsize : v.size = 8 := not_not.mp hsize
    split
    next hsym =>
      -- the address goes to the low half, and the high half is a zero
      have hhalf : ∀ c, valueChunk loc ({ size := 4, int := v.int, sym := v.sym }, 0) = .ok c ↔ _ :=
        fun c => valueChunk_symbol_eq_ok_iff hsym (.inl rfl)
      simp only [Chunk.concat_cons_eq_ok_iff, Chunk.concat_nil_eq_ok_iff, hhalf,
        valueChunk_symbol_eq_ok_iff hsym (.inr hsize)]
      constructor
      · rintro ⟨piece, later, ⟨hloc, rfl⟩, ⟨zeros, -, hzeros, rfl, rfl⟩, rfl⟩
        obtain rfl := Except.ok.inj hzeros
        refine ⟨_, ⟨hloc, rfl⟩, ?_⟩
        rw [hsize]
        rfl
      · rintro ⟨-, ⟨hloc, rfl⟩, rfl⟩
        refine ⟨_, _, ⟨hloc, rfl⟩, ⟨_, _, rfl, rfl, rfl⟩, ?_⟩
        rw [hsize]
        rfl
    next hsym =>
      -- the halves are numbers, which no field of an address stands for
      have hsym : v.sym = "" := not_not.mp hsym
      have hwhole : valueChunk loc (v, 0) =
          .ok { bytes := littleEndian 8 v.int.toUInt64.toNat } := by
        simp only [valueChunk, hsym, hsize]
        rfl
      have hhalf : ∀ loc n, valueChunk loc ({ size := 4, int := n }, 0) =
          .ok { bytes := littleEndian 4 n.toUInt64.toNat } := fun _ _ => rfl
      simp [Chunk.concat, hhalf, hwhole, Chunk.append, Chunk.narrowed, littleEndian_halves v.int,
        eq_comm]

end Values

/-! ## Objects -/

section Objects

variable {p : Profile} {u : CodeUnit} {loc : Nat} {c c' : Chunk}

theorem one_le_align_of_dataChunk {d : DataObject} (h : dataChunk p loc d = .ok c) :
    1 ≤ c.align := by
  obtain ⟨fill, start, body, -, -, -, -, -, rfl⟩ := dataChunk_eq_ok h
  simp only [Chunk.append]
  omega

/-- The data object with split values has the chunk of the data object, narrowed. -/
theorem dataChunk_splitQuads_eq_ok_iff {d : DataObject} :
    dataChunk p loc { d with values := splitQuads d.values } = .ok c' ↔
      ∃ c, dataChunk p loc d = .ok c ∧ c' = c.narrowed := by
  have hbody : ∀ loc c', Chunk.concat valueChunk loc (splitQuads d.values).zipIdx = .ok c' ↔
      ∃ c, Chunk.concat valueChunk loc d.values.zipIdx = .ok c ∧ c' = c.narrowed := by
    intro loc c'
    simp only [concat_zipIdx_eq_ok_iff]
    exact Chunk.concat_flatMap_eq_ok_iff concat_split_eq_ok_iff
  -- nothing but the values of the data object is different
  simp only [dataChunk, bind_eq_ok_iff, hbody, DataObject.emittedName]
  constructor
  · rintro ⟨pad, hpad, opening, hopening, -, ⟨body, hbody, rfl⟩, size, hsize, hc⟩
    refine ⟨_, ⟨pad, hpad, opening, hopening, body, hbody, size, hsize, rfl⟩, ?_⟩
    obtain ⟨-, rfl⟩ := padChunk_eq_ok_iff.mp hpad
    rw [← Except.ok.inj hc, Chunk.narrowed_append]
    rfl
  · rintro ⟨c, ⟨pad, hpad, opening, hopening, body, hbody, size, hsize, hc⟩, rfl⟩
    refine ⟨pad, hpad, opening, hopening, _, ⟨body, hbody, rfl⟩, size, hsize, ?_⟩
    obtain ⟨-, rfl⟩ := padChunk_eq_ok_iff.mp hpad
    rw [← Except.ok.inj hc, Chunk.narrowed_append]
    rfl

/-- Instructions have no fields of eight bytes. -/
theorem kind_of_instRelocs {i : Nat} {inst : Inst} {bytes : List UInt8} {relocs : List Reloc}
    (h : instRelocs p i loc inst bytes = .ok relocs) : ∀ r ∈ relocs, r.kind ≠ .abs64 := by
  unfold instRelocs at h
  split at h
  next =>
    rw [← Except.ok.inj h]
    simp
  next op hop =>
    split at h
    next => cases h
    next fix hfix =>
      obtain ⟨r, hr, rfl⟩ := map_eq_ok_iff.mp h
      unfold operandReloc at hr
      split at hr
      next => cases hr
      next offset hoffset =>
        rw [← Except.ok.inj hr, List.forall_mem_singleton]
        split <;> simp

/-- Functions have no fields of eight bytes. -/
theorem narrowed_of_funcs {funcs : List Func}
    (h : Chunk.concat (funcChunk p) loc funcs = .ok c) : c.narrowed = c := by
  have happend : ∀ (loc : Nat) (a b : Chunk), a.narrowed = a → b.narrowed = b →
      (a.append b).narrowed = a.append b := by
    intro loc a b ha hb
    rw [Chunk.narrowed_append, ha, hb]
  refine Chunk.concat_induction (P := fun _ c => c.narrowed = c) (fun _ => rfl) ?_ happend h
  intro loc f piece hpiece
  obtain ⟨fill, start, body, tables, -, -, -, -, hbody, htables, rfl⟩ := funcChunk_eq_ok hpiece
  have hinsts : body.narrowed = body := by
    refine Chunk.concat_induction (P := fun _ c => c.narrowed = c) (fun _ => rfl) ?_ happend hbody
    rintro loc ⟨inst, i⟩ piece hpiece
    obtain ⟨bytes, relocs, -, hrelocs, rfl⟩ := instChunk_eq_ok hpiece
    exact Chunk.narrowed_eq_self (kind_of_instRelocs hrelocs)
  have htables : tables.narrowed = tables :=
    Chunk.narrowed_eq_self fun r hr => by simp [relocs_of_tables htables] at hr
  simp only [Chunk.narrowed_append, hinsts, htables]
  rfl

/-- Legalization without a directive for eight bytes splits the values of all data objects. -/
theorem data_legalized (hp : p.hasData64 = false) (u : CodeUnit) :
    (Legalize.run p u).unit.data =
      u.data.map fun d => { d with values := splitQuads d.values } := by
  simp [Legalize.run, Legalize.expressible, hp]

/-- The object of a unit with the given chunks of functions and data. -/
def Object.ofChunks (p : Profile) (u : CodeUnit) (text data : Chunk) : Object :=
  { unit := u.name, format := p.format.name, arch := p.arch.name
    pointerSize := UInt8.ofNat p.pointerSize
    sections := (if u.funcs.isEmpty then [] else [sectionOf p.textSection text]) ++
      (if u.data.isEmpty then [] else [sectionOf p.dataSection data])
    symbols := text.symbols ++ data.symbols ++
      undefinedSymbols (text.symbols ++ data.symbols) (references text data)
    unwind := text.unwind }

theorem Object.assemble_eq_ok_iff {obj : Object} :
    Object.assemble p u = .ok obj ↔
      ∃ text data, Chunk.concat (funcChunk p) 0 u.funcs = .ok text ∧
        Chunk.concat (dataChunk p) 0 u.data = .ok data ∧ obj = ofChunks p u text data := by
  refine ⟨Object.assemble_eq_ok, ?_⟩
  rintro ⟨text, data, htext, hdata, rfl⟩
  simp only [Object.assemble, bind_eq_ok_iff, concat_blame_eq_ok_iff]
  exact ⟨text, htext, data, hdata, rfl⟩

/-- The object of narrowed chunks is that of the chunks, narrowed. -/
theorem Object.ofChunks_legalized {text data : Chunk} (htext : text.narrowed = text) :
    ofChunks p (Legalize.run p u).unit text data.narrowed = (ofChunks p u text data).narrowed := by
  have hreferences : references text data.narrowed = references text data := by
    simp [references, Chunk.narrowed, Function.comp_def]
  have hsection : (sectionOf p.textSection text).narrowed = sectionOf p.textSection text :=
    congrArg (sectionOf p.textSection) htext
  have hempty : (Legalize.run p u).unit.data.isEmpty = u.data.isEmpty := by
    simp [Legalize.run]
  rw [ofChunks, hreferences, hempty, ofChunks, Object.narrowed, List.map_append,
    apply_ite (List.map _), apply_ite (List.map _), List.map_singleton, List.map_singleton,
    hsection]
  rfl

/-- The object of a legalized unit is that of the unit, narrowed. -/
theorem assemble_legalized_eq_ok_iff (hp : p.hasData64 = false) {obj' : Object} :
    Object.assemble p (Legalize.run p u).unit = .ok obj' ↔
      ∃ obj, Object.assemble p u = .ok obj ∧ obj' = obj.narrowed := by
  have hdata : ∀ c', Chunk.concat (dataChunk p) 0 (Legalize.run p u).unit.data = .ok c' ↔
      ∃ c, Chunk.concat (dataChunk p) 0 u.data = .ok c ∧ c' = c.narrowed := by
    intro c'
    rw [data_legalized hp, List.map_eq_flatMap]
    refine Chunk.concat_flatMap_eq_ok_iff fun loc d c' => ?_
    rw [Chunk.concat_singleton_eq_ok_iff fun _ => one_le_align_of_dataChunk,
      dataChunk_splitQuads_eq_ok_iff]
  simp only [Object.assemble_eq_ok_iff, hdata]
  constructor
  · rintro ⟨text, -, htext, ⟨data, hdata, rfl⟩, rfl⟩
    exact ⟨_, ⟨text, data, htext, hdata, rfl⟩, Object.ofChunks_legalized (narrowed_of_funcs htext)⟩
  · rintro ⟨-, ⟨text, data, htext, hdata, rfl⟩, rfl⟩
    exact ⟨text, _, htext, ⟨data, hdata, rfl⟩,
      (Object.ofChunks_legalized (narrowed_of_funcs htext)).symm⟩

end Objects

/-! ## Places -/

/-- The values of a unit in order, each with its offset in the section of data. -/
def CodeUnit.placedValues (u : CodeUnit) : List (Nat × Datum) :=
  (placedFrom DataObject.next 0 u.data).flatMap fun (loc, d) =>
    placedFrom Datum.next (d.piece loc).start d.values

/-- The bytes of a value stand at a place in the section of data, and if it is an address, then a
relocation for it applies there. -/
def Object.HasValue (p : Profile) (obj : Object) (place : Nat) (v : Datum) : Prop :=
  ∃ s ∈ obj.sections, s.name = p.dataSection ∧
    (s.data.drop place).take v.image.length = v.image ∧
    (v.sym ≠ "" → ∃ r ∈ s.relocs, r.offset.toNat = place ∧
      r.kind = (if v.size = 8 then .abs64 else .abs32) ∧ r.symbol = v.sym ∧ r.addend = v.int)

section Places

variable {p : Profile} {u : CodeUnit} {loc : Nat} {c : Chunk}

/-- The halves of a value have its bytes. -/
theorem flatMap_image_split (v : Datum) : v.split.flatMap Datum.image = v.image := by
  unfold Datum.split
  split
  next => simp
  next hsize =>
    have hsize : v.size = 8 := not_not.mp hsize
    split
    next hsym =>
      simp only [List.flatMap_cons, List.flatMap_nil, Datum.image, if_neg hsym, hsize]
      rfl
    next hsym =>
      simp only [List.flatMap_cons, List.flatMap_nil, Datum.image, if_pos (not_not.mp hsym), hsize,
        List.append_nil]
      exact (littleEndian_halves v.int).symm

theorem foldl_next (values : List Datum) (loc : Nat) :
    values.foldl Datum.next loc = loc + (values.flatMap Datum.image).length := by
  induction values generalizing loc with
  | nil => rfl
  | cons v rest ih =>
    rw [List.foldl_cons, ih, List.flatMap_cons, List.length_append, Datum.next, Nat.add_assoc]

theorem placedFrom_append {α : Type} {next : Nat → α → Nat} (as bs : List α) (loc : Nat) :
    placedFrom next loc (as ++ bs) =
      placedFrom next loc as ++ placedFrom next (as.foldl next loc) bs := by
  induction as generalizing loc with
  | nil => rfl
  | cons a rest ih =>
    rw [List.cons_append, placedFrom, placedFrom, ih, List.cons_append, List.foldl_cons]

theorem placedFrom_map {α β : Type} {next : Nat → β → Nat} (h : α → β) (as : List α) (loc : Nat) :
    placedFrom next loc (as.map h) =
      (placedFrom (fun loc a => next loc (h a)) loc as).map fun (loc, a) => (loc, h a) := by
  induction as generalizing loc with
  | nil => rfl
  | cons a rest ih => rw [List.map_cons, placedFrom, placedFrom, ih, List.map_cons]

/-- The halves of a value lie where the value lay. -/
theorem placedFrom_splitQuads (values : List Datum) (loc : Nat) :
    placedFrom Datum.next loc (splitQuads values) =
      (placedFrom Datum.next loc values).flatMap fun (place, v) =>
        placedFrom Datum.next place v.split := by
  induction values generalizing loc with
  | nil => rfl
  | cons v rest ih =>
    rw [splitQuads, List.flatMap_cons, placedFrom_append, foldl_next, flatMap_image_split,
      placedFrom, List.flatMap_cons, ← splitQuads, ← ih]
    rfl

/-- Where there is no directive for eight bytes, the halves of values lie where the values lay, and
all other values lie where they were. -/
theorem CodeUnit.placedValues_legalized (hp : p.hasData64 = false) (u : CodeUnit) :
    (Legalize.run p u).unit.placedValues =
      u.placedValues.flatMap fun (place, v) => placedFrom Datum.next place v.split := by
  -- a data object has as many bytes as before, so the next one stays where it was
  have hpiece : ∀ loc (d : DataObject),
      ({ d with values := splitQuads d.values } : DataObject).piece loc = d.piece loc := by
    intro loc d
    have himage : (splitQuads d.values).flatMap Datum.image = d.values.flatMap Datum.image := by
      simp only [splitQuads, List.flatMap_assoc, flatMap_image_split]
    simp only [DataObject.piece, DataObject.image, himage, DataObject.emittedName]
  have hnext : (fun loc (d : DataObject) =>
      DataObject.next loc { d with values := splitQuads d.values }) = DataObject.next := by
    funext loc d
    rw [DataObject.next, hpiece, DataObject.next]
  rw [placedValues, data_legalized hp, placedFrom_map, hnext, List.flatMap_map, placedValues,
    List.flatMap_assoc]
  simp only [hpiece, placedFrom_splitQuads]

/-- A value that has a place is there in the object. -/
theorem Object.hasValue_of_placed {obj : Object} (h : Object.assemble p u = .ok obj) {place : Nat}
    {v : Datum} (hplaced : (place, v) ∈ u.placedValues) : obj.HasValue p place v := by
  obtain ⟨text, data, -, hdata, rfl⟩ := assemble_eq_ok_iff.mp h
  obtain ⟨⟨loc, d⟩, hd, hv⟩ := List.mem_flatMap.mp hplaced
  have hne : u.data ≠ [] := List.ne_nil_of_mem (mem_of_mem_placedFrom hd)
  -- the data object in the section, and the value in the data object
  obtain ⟨before, chunk, after, hchunk, hdata, hloc⟩ :=
    Chunk.exists_piece_of_placed (fun _ _ _ => end_of_dataChunk) hdata hd
  obtain ⟨fill, start, body, hfill, hstart, -, -, hbody, hchunk⟩ := dataChunk_eq_ok hchunk
  have hpiece : start = (d.piece loc).start := by
    rw [hstart, hfill]
    exact add_length_padding _ _ _
  simp only [← hpiece] at hv
  obtain ⟨early, piece, late, hpiece, hbody, hplace⟩ :=
    Chunk.exists_piece_of_placed (fun _ _ _ => end_of_valueChunk)
      (concat_zipIdx_eq_ok_iff.mp hbody) hv
  have hbytes : data.bytes =
      (before.bytes ++ fill ++ early.bytes) ++ (v.image ++ (late.bytes ++ after.bytes)) := by
    simp [hdata, hchunk, hbody, (image_of_valueChunk hpiece).1]
  have hrelocs : ∀ r ∈ piece.relocs, r ∈ data.relocs := by
    intro r hr
    simp [hdata, hchunk, hbody, hr]
  have hlength : place = (before.bytes ++ fill ++ early.bytes).length := by
    simp only [List.length_append]
    omega
  refine ⟨sectionOf p.dataSection data, by simp [ofChunks, hne], rfl, ?_, fun hsym => ?_⟩
  · rw [sectionOf, hbytes, hlength, List.drop_left, List.take_left]
  · rcases valueChunk_eq_ok hpiece with ⟨hempty, -⟩ | ⟨-, hword, rfl⟩
    · exact absurd hempty hsym
    · exact ⟨_, hrelocs _ List.mem_cons_self, UInt32.toNat_ofNat_of_lt' hword, rfl, rfl, rfl⟩

end Places

/-! ## Linking -/

section Links

/-- The relocations of a chunk at an offset are in the order of their places, and the upper half of
a field of eight bytes is zero. -/
structure Chunk.Clear (loc : Nat) (c : Chunk) : Prop where
  bounded : ∀ r ∈ c.relocs, loc ≤ r.offset.toNat ∧ r.offset.toNat ≤ loc + c.bytes.length
  sorted : c.relocs.Pairwise fun a b => a.offset.toNat ≤ b.offset.toNat
  high : ∀ r ∈ c.relocs, r.kind = .abs64 → ∀ j, 4 ≤ j → j < 8 →
    c.bytes[r.offset.toNat - loc + j]? = some 0

variable {p : Profile} {u : CodeUnit} {loc : Nat} {a b c : Chunk}

theorem Chunk.clear_of_relocs_eq_nil (h : c.relocs = []) : c.Clear loc := by
  constructor <;> simp [h]

theorem Chunk.Clear.append (ha : a.Clear loc) (hb : b.Clear (loc + a.bytes.length)) :
    (a.append b).Clear loc where
  bounded r hr := by
    rw [relocs_append, List.mem_append] at hr
    rw [bytes_append, List.length_append]
    rcases hr with hr | hr
    · have hin := ha.bounded r hr
      omega
    · have hin := hb.bounded r hr
      omega
  sorted := by
    rw [relocs_append, List.pairwise_append]
    exact ⟨ha.sorted, hb.sorted, fun x hx y hy =>
      Nat.le_trans (ha.bounded x hx).2 (hb.bounded y hy).1⟩
  high r hr hwide j hlow hhigh := by
    rw [relocs_append, List.mem_append] at hr
    rw [bytes_append]
    rcases hr with hr | hr
    · have hzero := ha.high r hr hwide j hlow hhigh
      rw [List.getElem?_append_left (List.getElem?_eq_some_iff.mp hzero).1, hzero]
    · have hzero := hb.high r hr hwide j hlow hhigh
      have hin := hb.bounded r hr
      -- the place lies in the second chunk, behind all bytes of the first
      rw [List.getElem?_append_right (by omega), ← hzero]
      congr 1
      omega

/-- The chunk of a value has a field of eight bytes only if it is eight zeros. -/
theorem clear_valueChunk {numbered : Datum × Nat} (h : valueChunk loc numbered = .ok c) :
    c.Clear loc := by
  obtain ⟨v, i⟩ := numbered
  rcases valueChunk_eq_ok h with ⟨-, bytes, -, rfl⟩ | ⟨-, hloc, rfl⟩
  · exact Chunk.clear_of_relocs_eq_nil rfl
  · have hplace : (UInt32.ofNat loc).toNat = loc := UInt32.toNat_ofNat_of_lt' hloc
    refine ⟨?_, by simp, ?_⟩
    · simp [hplace]
    · intro r hr hwide j hlow hhigh
      rw [List.mem_singleton] at hr
      subst hr
      have hsize : v.size = 8 := by
        by_contra hsize
        simp [hsize] at hwide
      simp only [hplace, Nat.sub_self, Nat.zero_add, hsize]
      exact List.getElem?_replicate_of_lt hhigh

theorem clear_dataChunk {d : DataObject} (h : dataChunk p loc d = .ok c) : c.Clear loc := by
  obtain ⟨fill, start, body, -, hstart, -, -, hbody, rfl⟩ := dataChunk_eq_ok h
  refine Chunk.Clear.append (Chunk.clear_of_relocs_eq_nil rfl) ?_
  rw [Chunk.bytes_append, List.append_nil, ← hstart]
  exact Chunk.concat_induction (P := Chunk.Clear) (fun _ => Chunk.clear_of_relocs_eq_nil rfl)
    (fun _ _ _ => clear_valueChunk) (fun _ _ _ => Chunk.Clear.append) hbody

/-- Linking stores the same bytes in a section with narrowed fields, wherever addresses fit. -/
theorem Object.getElem?_linked_narrowed {obj : Object} (h : Object.assemble p u = .ok obj)
    {s : Section} (hs : s ∈ obj.sections) (base : Int) (addr : String → Int) {i : Nat}
    (hfits : ∀ r ∈ s.relocs, r.kind = .abs64 → r.offset.toNat ≤ i → i < r.offset.toNat + 8 →
      r.Fits addr) :
    (s.narrowed.linked base addr)[i]? = (s.linked base addr)[i]? := by
  -- functions have nothing to narrow, and the chunk of data is clear
  rcases sections_of_assemble h hs with ⟨text, htext, rfl⟩ | ⟨data, hdata, rfl⟩
  · have hsame : (sectionOf p.textSection text).narrowed = sectionOf p.textSection text :=
      congrArg (sectionOf p.textSection) (narrowed_of_funcs htext)
    rw [hsame]
  · have hclear : data.Clear 0 :=
      Chunk.concat_induction (P := Chunk.Clear) (fun _ => Chunk.clear_of_relocs_eq_nil rfl)
        (fun _ _ _ => clear_dataChunk) (fun _ _ _ => Chunk.Clear.append) hdata
    exact getElem?_fill_narrowed hclear.sorted
      (fun r hr hwide j hlow hhigh => hclear.high r hr hwide j hlow hhigh) hfits

end Links

/-! ## Legalized units -/

/-- Values that have been split are not split again. -/
theorem splitQuads_splitQuads (values : List Datum) :
    splitQuads (splitQuads values) = splitQuads values := by
  have hsame : ∀ v ∈ splitQuads values, v.split = [v] := fun v hv =>
    if_pos (size_ne_eight_of_mem_splitQuads hv)
  calc splitQuads (splitQuads values)
      = (splitQuads values).flatMap fun v => [v] := List.flatMap_congr hsame
    _ = splitQuads values := by rw [List.flatMap_singleton']

/-- Splitting values of eight bytes keeps the linked image. Where there is no directive for eight
bytes, the object of a legalized unit exists in the same cases as that of the unit and differs from
it only in the fields of addresses: each of eight bytes is one of four, at the same place, with the
same symbol and addend. Values that are not split keep their places, and the halves of the others
lie where they lay. After linking, a byte differs at most where it lies in the field of an address
that does not fit four bytes. No value of eight bytes is left, and splitting again changes
nothing. -/
theorem legalized_object_links_alike {p : Profile} (hp : p.hasData64 = false) (u : CodeUnit) :
    (∀ obj', Object.assemble p (Legalize.run p u).unit = .ok obj' ↔
        ∃ obj, Object.assemble p u = .ok obj ∧ obj' = obj.narrowed) ∧
      ((Legalize.run p u).unit.placedValues =
        u.placedValues.flatMap fun (place, v) => placedFrom Datum.next place v.split) ∧
      (∀ obj, Object.assemble p u = .ok obj →
        (∀ place v, (place, v) ∈ u.placedValues → obj.HasValue p place v) ∧
        (∀ place v, (place, v) ∈ (Legalize.run p u).unit.placedValues →
          obj.narrowed.HasValue p place v) ∧
        ∀ s ∈ obj.sections, ∀ (base : Int) (addr : String → Int) (i : Nat),
          (∀ r ∈ s.relocs, r.kind = .abs64 → r.offset.toNat ≤ i → i < r.offset.toNat + 8 →
            0 ≤ addr r.symbol + r.addend.toInt ∧ addr r.symbol + r.addend.toInt < 2 ^ 32) →
          (s.narrowed.linked base addr)[i]? = (s.linked base addr)[i]?) ∧
      (∀ d ∈ (Legalize.run p u).unit.data, ∀ v ∈ d.values, v.size ≠ 8) ∧
      ∀ values, splitQuads (splitQuads values) = splitQuads values := by
  refine ⟨fun obj' => assemble_legalized_eq_ok_iff hp, CodeUnit.placedValues_legalized hp u,
    fun obj hobj => ⟨fun place v => Object.hasValue_of_placed hobj, fun place v => ?_,
      fun s hs base addr i => Object.getElem?_linked_narrowed hobj hs base addr⟩,
    fun d hd v hv => ?_, splitQuads_splitQuads⟩
  · exact Object.hasValue_of_placed ((assemble_legalized_eq_ok_iff hp).mpr ⟨obj, hobj, rfl⟩)
  · rw [data_legalized hp] at hd
    obtain ⟨d, -, rfl⟩ := List.mem_map.mp hd
    exact size_ne_eight_of_mem_splitQuads hv

/-- A negative number, an address and a byte. -/
def mixedData : CodeUnit :=
  { name := "mixed"
    data := [{ name := "table", linkage := .global, align := 4
               values := [{ size := 8, int := -2 }, { size := 8, int := 4, sym := "counter" },
                 { size := 1, int := 7 }] }] }

/-- The conventions of 32-bit OpenBSD, which has no directive for eight bytes. -/
def Profile.openbsd : Profile :=
  let b : Bucket := ⟨.x86, .elf, .openbsd, .standard⟩
  .envStep b <| .osStep b <| .formatStep b {} <| .archStep b {} { bucket := b }

/-- There the values are split, and linked to the same bytes. -/
theorem legalized_mixedData_links_alike :
    Profile.ofTriple { arch := .x86, vendor := "", os := .openbsd, env := .unknown } {} =
        .ok .openbsd ∧
      ∃ obj, Object.assemble .openbsd mixedData = .ok obj ∧
        Object.assemble .openbsd (Legalize.run .openbsd mixedData).unit = .ok obj.narrowed ∧
        ∀ s ∈ obj.sections, ∀ (base : Int) (addr : String → Int), addr "counter" = 0x1000 →
          s.narrowed.linked base addr = s.linked base addr := by
  have hp : Profile.openbsd.hasData64 = false := by decide +kernel
  have hrelocs : (Object.assemble .openbsd mixedData).toOption.map
      (fun obj => obj.sections.flatMap Section.relocs) = some [⟨8, .abs64, "counter", 4⟩] := by
    decide +kernel
  cases hobj : Object.assemble .openbsd mixedData with
  | error e =>
    rw [hobj] at hrelocs
    cases hrelocs
  | ok obj =>
    obtain ⟨hlegalized, -, hlinked, -⟩ := legalized_object_links_alike hp mixedData
    refine ⟨rfl, obj, rfl, (hlegalized _).mpr ⟨obj, hobj, rfl⟩, fun s hs base addr haddr => ?_⟩
    refine List.ext_getElem? fun i => (hlinked obj hobj).2.2 s hs base addr i fun r hr _ _ _ => ?_
    have hmem : r ∈ obj.sections.flatMap Section.relocs := List.mem_flatMap.mpr ⟨s, hs, hr⟩
    rw [hobj] at hrelocs
    have hone : obj.sections.flatMap Section.relocs = _ := Option.some.inj hrelocs
    rw [hone, List.mem_singleton] at hmem
    rw [hmem, haddr]
    decide

end CodeEmission
