import CodeEmission.Proofs.Object.Chunk

/-!
# Where Instructions Lie

The places of instructions in the section of code, computed from sizes and alignments alone:
`CodeUnit.placedInsts` lists every instruction of a unit with the offset it starts at. Entities stand
one after another, each at the next multiple of its alignment, and a function's jump tables follow
its body.

* `Chunk.concat_induction_placed`: what each member of a list has at its place, the chunk of the list
  has of all of them.
* `hasPart_of_placed`: the assembled section has the chunk of an instruction at its place, and no
  relocation of anything else applies to its bytes.
* `instRelocs_eq_ok`: the relocation of an instruction, in unbounded integers. An accepted function
  starts below `UInt32.size` and its body is shorter than that, so no sum of an offset and a fixup wraps.
-/

namespace CodeEmission

/-- Things one after another, each with its offset; what follows a thing starts at `next`. -/
def placedFrom {α : Type} (next : Nat → α → Nat) (loc : Nat) : List α → List (Nat × α)
  | [] => []
  | a :: rest => (loc, a) :: placedFrom next (next loc a) rest

/-- The next multiple of an alignment. An alignment of one or less asks for nothing. -/
def alignUp (align loc : Nat) : Nat :=
  if align ≤ 1 then loc else (loc + (align - 1)) / align * align

/-- The bytes that an instruction takes; none if its machine code cannot be read. -/
def Inst.size (inst : Inst) : Nat :=
  match decodeEncoding inst.encoding with
  | .ok bytes => bytes.length
  | .error _ => 0

/-- Where an instruction at an offset ends. -/
def Inst.next (loc : Nat) (inst : Inst) : Nat :=
  loc + inst.size

/-- Where a jump table ends that comes after an offset. -/
def JumpTable.next (loc : Nat) (t : JumpTable) : Nat :=
  alignUp 4 loc + 4 * t.targets.length

/-- Where a function starts that comes after an offset. -/
def Func.start (loc : Nat) (f : Func) : Nat :=
  alignUp f.align.toInt.toNat loc

/-- Where a function that comes after an offset ends, jump tables included. -/
def Func.next (loc : Nat) (f : Func) : Nat :=
  f.jumpTables.foldl JumpTable.next (f.insts.foldl Inst.next (f.start loc))

/-- The instructions of a unit in order, each with its offset in the section of code. -/
def CodeUnit.placedInsts (u : CodeUnit) : List (Nat × Inst) :=
  (placedFrom Func.next 0 u.funcs).flatMap fun (loc, f) =>
    placedFrom Inst.next (f.start loc) f.insts

section Places

variable {α : Type} {next : Nat → α → Nat} {loc : Nat}

/-- A thing that has a place lies where those before it end. -/
theorem exists_split_of_mem_placedFrom {as : List α} {place : Nat} {a : α}
    (h : (place, a) ∈ placedFrom next loc as) :
    ∃ before after, as = before ++ a :: after ∧ place = before.foldl next loc := by
  induction as generalizing loc with
  | nil => cases h
  | cons b rest ih =>
    rw [placedFrom, List.mem_cons] at h
    rcases h with hhead | hrest
    · obtain ⟨rfl, rfl⟩ := Prod.mk.inj hhead
      exact ⟨[], rest, rfl, rfl⟩
    · obtain ⟨before, after, rfl, rfl⟩ := ih hrest
      exact ⟨b :: before, after, rfl, rfl⟩

/-- Every thing has a place. -/
@[simp]
theorem map_snd_placedFrom (as : List α) : (placedFrom next loc as).map Prod.snd = as := by
  induction as generalizing loc with
  | nil => rfl
  | cons a rest ih => rw [placedFrom, List.map_cons, ih]

/-- Every instruction of a unit has a place. -/
theorem CodeUnit.map_snd_placedInsts (u : CodeUnit) :
    u.placedInsts.map Prod.snd = u.funcs.flatMap Func.insts := by
  rw [CodeUnit.placedInsts, List.map_flatMap]
  simp only [map_snd_placedFrom]
  rw [← List.flatMap_map, map_snd_placedFrom]

/-- The fill bytes before an entity bring it to the next multiple of its alignment. -/
theorem add_length_padding (align loc : Nat) (fill : UInt8) :
    loc + (padding align loc fill).length = alignUp align loc := by
  unfold padding alignUp
  split
  next => rfl
  next hgt =>
    rw [List.length_replicate]
    have hpos : 0 < align := by omega
    have hlt : loc % align < align := Nat.mod_lt loc hpos
    have hloc : loc / align * align + loc % align = loc := by
      rw [Nat.mul_comm]
      exact Nat.div_add_mod loc align
    -- on a multiple there is no gap; otherwise the quotient grows by one
    by_cases hz : loc % align = 0
    · have hdiv : (loc + (align - 1)) / align = loc / align := by
        rw [Nat.div_eq_iff hpos]
        omega
      rw [hdiv, hz, Nat.sub_zero, Nat.mod_self]
      omega
    · have hdiv : (loc + (align - 1)) / align = loc / align + 1 := by
        rw [Nat.div_eq_iff hpos, Nat.add_mul]
        omega
      rw [hdiv, Nat.mod_eq_of_lt (by omega), Nat.add_mul]
      omega

/-- The chunk of a list ends where its members end one after another. -/
theorem Chunk.end_of_concat {ε : Type} {f : Nat → α → Except ε Chunk}
    (hnext : ∀ loc a piece, f loc a = .ok piece → loc + piece.bytes.length = next loc a)
    {as : List α} {c : Chunk} (h : concat f loc as = .ok c) :
    loc + c.bytes.length = as.foldl next loc := by
  induction as generalizing loc c with
  | nil =>
    rw [concat_nil_eq_ok_iff.mp h]
    rfl
  | cons a rest ih =>
    obtain ⟨piece, later, hpiece, hlater, rfl⟩ := concat_cons_eq_ok_iff.mp h
    rw [List.foldl_cons, ← hnext loc a piece hpiece, ← ih hlater, bytes_append, List.length_append,
      Nat.add_assoc]

/-- What the empty chunk has nothing of, every member of a list has at its place, and joined chunks
have together, the chunk of the list has of all its members. -/
theorem Chunk.concat_induction_placed {β ε : Type} {f : Nat → α → Except ε Chunk}
    {image : Nat → α → List β} {R : Nat → Chunk → List β → Prop} (hempty : ∀ loc, R loc {} [])
    (hjoin : ∀ loc a b xs ys, R loc a xs → R (loc + a.bytes.length) b ys →
      R loc (a.append b) (xs ++ ys))
    {as : List α} (hmember : ∀ loc, ∀ a ∈ as, ∀ piece, f loc a = .ok piece →
      R loc piece (image loc a) ∧ loc + piece.bytes.length = next loc a)
    {c : Chunk} (h : concat f loc as = .ok c) :
    R loc c ((placedFrom next loc as).flatMap fun (loc, a) => image loc a) := by
  induction as generalizing loc c with
  | nil =>
    rw [concat_nil_eq_ok_iff.mp h]
    exact hempty loc
  | cons a rest ih =>
    obtain ⟨piece, later, hpiece, hlater, rfl⟩ := concat_cons_eq_ok_iff.mp h
    obtain ⟨himage, hnext⟩ := hmember loc a List.mem_cons_self piece hpiece
    rw [placedFrom, List.flatMap_cons, ← hnext]
    exact hjoin loc piece later _ _ himage
      (ih (fun loc b hb => hmember loc b (List.mem_cons_of_mem a hb)) hlater)

end Places

section Ends

variable {p : Profile} {loc : Nat} {c : Chunk}

/-- An assembled instruction ends where its size says. -/
theorem end_of_instChunk {numbered : Inst × Nat} (h : instChunk p loc numbered = .ok c) :
    loc + c.bytes.length = numbered.1.next loc := by
  obtain ⟨inst, i⟩ := numbered
  obtain ⟨bytes, relocs, hbytes, -, rfl⟩ := instChunk_eq_ok h
  simp only [Inst.next, Inst.size, hbytes]

/-- An assembled jump table ends where its targets say. -/
theorem end_of_tableChunk {body : List Symbol} {t : JumpTable}
    (h : tableChunk p body loc t = .ok c) : loc + c.bytes.length = t.next loc := by
  obtain ⟨entries, hentries, rfl⟩ := tableChunk_eq_ok h
  rw [List.length_append, ← Nat.add_assoc, add_length_padding, length_of_tableEntries hentries]
  rfl

/-- An assembled body ends where its instructions say. -/
theorem end_of_body {insts : List Inst} (h : Chunk.concat (instChunk p) loc insts.zipIdx = .ok c) :
    loc + c.bytes.length = insts.foldl Inst.next loc := by
  have hnext : ∀ loc (numbered : Inst × Nat) piece, instChunk p loc numbered = .ok piece →
      loc + piece.bytes.length = numbered.1.next loc := fun _ _ _ => end_of_instChunk
  rw [Chunk.end_of_concat hnext h, ← List.foldl_map (f := Prod.fst) (g := Inst.next), List.zipIdx_map_fst]

/-- An assembled function ends where its parts say. -/
theorem end_of_funcChunk {f : Func} (h : funcChunk p loc f = .ok c) :
    loc + c.bytes.length = f.next loc := by
  obtain ⟨fill, start, body, tables, hfill, hstart, -, -, hbody, htables, rfl⟩ := funcChunk_eq_ok h
  have hplace : start = f.start loc := by
    rw [hstart, hfill, add_length_padding]
    rfl
  rw [Func.next, ← hplace, ← end_of_body hbody,
    ← Chunk.end_of_concat (fun _ _ _ => end_of_tableChunk) htables]
  simp only [Chunk.bytes_append, List.append_nil, List.length_append]
  omega

end Ends

section Fields

/-- Where the symbol field of an instruction lies in machine code of the given length. -/
def Inst.fieldAt (inst : Inst) (length : Nat) : Int :=
  if inst.fixupOffset = 0 then length - 4 else inst.fixupOffset.toInt

/-- The symbol field of an instruction lies where its fixup says, and not before the instruction. -/
theorem fixupPlace?_eq_some {inst : Inst} {length : Nat} {fix : Int64} (hlength : length < 2 * UInt32.size)
    (h : fixupPlace? inst.fixupOffset length = some fix) :
    fix.toInt = inst.fieldAt length ∧ 0 ≤ fix.toInt ∧
      (fix.toInt < UInt32.size → fix.toInt + 4 ≤ length) := by
  have hword : UInt32.size = 4294967296 := rfl
  have hlengthInt : (Int64.ofNat length).toInt = length := Int64.toInt_ofNat_of_lt (by omega)
  have hfour : (4 : Int64).toInt = 4 := rfl
  unfold fixupPlace? at h
  dsimp only at h
  -- the place is compared as a 64-bit word, so it is named before the comparison is opened
  generalize hplace : (if inst.fixupOffset = 0 then Int64.ofNat length - 4
    else inst.fixupOffset) = place at h
  split at h
  · cases h
  next hroom =>
    rw [Option.some.injEq] at h
    rw [not_or, Int64.not_lt, Int64.not_lt, h, Int64.le_iff_toInt_le, Int64.le_iff_toInt_le,
      hlengthInt, Int64.toInt_zero] at hroom
    refine ⟨?_, hroom.1, ?_⟩
    · rw [← h, ← hplace, Inst.fieldAt]
      split
      · rw [Int64.toInt_sub, hlengthInt, hfour, Int.bmod_eq_of_le (by omega) (by omega)]
      · rfl
    · -- the end of the field does not wrap when the field starts below the bound
      intro hsmall
      rw [Int64.toInt_add, hfour, Int.bmod_eq_of_le (by omega) (by omega)] at hroom
      exact hroom.2

/-- An instruction without a symbol has no relocation, and any other has one, in its own bytes. -/
theorem instRelocs_eq_ok {p : Profile} {i loc : Nat} {inst : Inst} {bytes : List UInt8}
    {relocs : List Reloc} (hbound : loc + bytes.length < 2 * UInt32.size)
    (h : instRelocs p i loc inst bytes = .ok relocs) :
    (inst.symbolic? = none ∧ relocs = []) ∨
      ∃ op offset, inst.symbolic? = some op ∧ 0 ≤ inst.fieldAt bytes.length ∧
        inst.fieldAt bytes.length + 4 ≤ bytes.length ∧
        (offset.toNat : Int) = loc + inst.fieldAt bytes.length ∧
        relocs =
          [if op.isAbsolute p then
            { offset, kind := .abs32, symbol := op.sym, addend := op.disp }
          else
            { offset, kind := .pcRel32, symbol := op.sym
              addend := op.disp - .ofInt (bytes.length - inst.fieldAt bytes.length) }] := by
  unfold instRelocs at h
  split at h
  next hnone => exact .inl ⟨hnone, (Except.ok.inj h).symm⟩
  next op hop =>
    split at h
    · cases h
    next fix hfix =>
      obtain ⟨hfield, hnonneg, hroom⟩ := fixupPlace?_eq_some (by omega) hfix
      obtain ⟨r, hr, rfl⟩ := map_eq_ok_iff.mp h
      unfold operandReloc at hr
      split at hr
      · cases hr
      next offset hoffset =>
        -- the sum did not wrap: it would have become negative
        have hsum := word32_eq_ok_iff.mp hoffset
        have hword : UInt32.size = 4294967296 := rfl
        have hlt := offset.toNat_lt_size
        have hmax := fix.toInt_lt
        have hplace : (offset.toNat : Int) = loc + fix.toInt := by
          rw [hsum, Int64.toInt_add, Int64.toInt_ofNat_of_lt (by omega)]
          rw [Int64.toInt_add, Int64.toInt_ofNat_of_lt (by omega), Int.bmod_def] at hsum
          rw [Int.bmod_def]
          omega
        refine .inr ⟨op, offset, hop, hfield ▸ hnonneg, ?_, hfield ▸ hplace, ?_⟩
        · rw [← hfield]
          exact hroom (by omega)
        · rw [← Except.ok.inj hr, ← hfield, Int64.ofInt_sub, Int64.ofInt_toInt, Int64.ofInt_eq_ofNat]

end Fields

namespace Chunk

/-- Every relocation of a chunk at an offset applies to its own bytes. -/
def Bounded (loc : Nat) (c : Chunk) : Prop :=
  ∀ r ∈ c.relocs, loc ≤ r.offset.toNat ∧ r.offset.toNat < loc + c.bytes.length

/-- A chunk at an offset has another as a part at a place: its bytes are there, its relocations are
those of the part and others, and the others apply to bytes before it and after it. -/
structure HasPart (loc : Nat) (c : Chunk) (place : Nat) (part : Chunk) : Prop where
  /-- The bytes of the part stand at its place. -/
  bytes : ∃ before after, c.bytes = before ++ (part.bytes ++ after) ∧ loc + before.length = place
  /-- The relocations of the part stand apart from the others. -/
  relocs : ∃ before after, c.relocs = before ++ (part.relocs ++ after) ∧
    (∀ r ∈ before, r.offset.toNat < place) ∧
    ∀ r ∈ after, place + part.bytes.length ≤ r.offset.toNat

variable {loc place : Nat} {a b c part : Chunk}

/-- Chunks without relocations are bounded. -/
theorem bounded_of_relocs_eq_nil (h : c.relocs = []) : Bounded loc c := by
  intro r hr
  rw [h] at hr
  cases hr

/-- Joined bounded chunks are bounded. -/
theorem Bounded.append (ha : Bounded loc a) (hb : Bounded (loc + a.bytes.length) b) :
    Bounded loc (a.append b) := by
  intro r hr
  rw [relocs_append, List.mem_append] at hr
  rw [bytes_append, List.length_append]
  rcases hr with hr | hr
  · have hin := ha r hr
    omega
  · have hin := hb r hr
    omega

/-- A chunk is a part of itself. -/
theorem HasPart.refl (loc : Nat) (c : Chunk) : HasPart loc c loc c :=
  ⟨⟨[], [], by simp, rfl⟩, ⟨[], [], by simp, by simp, by simp⟩⟩

/-- A part ends before its chunk does. -/
theorem HasPart.end_le (h : HasPart loc c place part) :
    place + part.bytes.length ≤ loc + c.bytes.length := by
  obtain ⟨⟨before, after, hbytes, hplace⟩, -⟩ := h
  rw [hbytes, List.length_append, List.length_append]
  omega

/-- A part of a part is a part. -/
theorem HasPart.trans {inner : Chunk} {place' : Nat} (h : HasPart loc c place part)
    (h' : HasPart place part place' inner) : HasPart loc c place' inner := by
  have hend := h'.end_le
  obtain ⟨⟨before, after, hbytes, hplace⟩, ⟨early, late, hrelocs, hearly, hlate⟩⟩ := h
  obtain ⟨⟨before', after', hbytes', hplace'⟩, ⟨early', late', hrelocs', hearly', hlate'⟩⟩ := h'
  refine ⟨⟨before ++ before', after' ++ after, by simp [hbytes, hbytes'], ?_⟩,
    ⟨early ++ early', late' ++ late, by simp [hrelocs, hrelocs'], ?_, ?_⟩⟩
  · rw [List.length_append]
    omega
  · intro r hr
    rcases List.mem_append.mp hr with hr | hr
    · have hlt := hearly r hr
      omega
    · exact hearly' r hr
  · intro r hr
    rcases List.mem_append.mp hr with hr | hr
    · exact hlate' r hr
    · have hle := hlate r hr
      omega

/-- A part of a chunk is a part of that chunk with another after it. -/
theorem HasPart.append_right (h : HasPart loc a place part) (hb : Bounded (loc + a.bytes.length) b) :
    HasPart loc (a.append b) place part := by
  obtain ⟨⟨before, after, hbytes, hplace⟩, ⟨before', after', hrelocs, hbefore, hafter⟩⟩ := h
  refine ⟨⟨before, after ++ b.bytes, by simp [hbytes], hplace⟩,
    ⟨before', after' ++ b.relocs, by simp [hrelocs], hbefore, ?_⟩⟩
  intro r hr
  rcases List.mem_append.mp hr with hr | hr
  · exact hafter r hr
  · have hlength : a.bytes.length = before.length + (part.bytes.length + after.length) := by
      rw [hbytes, List.length_append, List.length_append]
    have hin := hb r hr
    omega

/-- A part of a chunk is a part of that chunk with another before it. -/
theorem HasPart.append_left (h : HasPart (loc + a.bytes.length) b place part) (ha : Bounded loc a) :
    HasPart loc (a.append b) place part := by
  obtain ⟨⟨before, after, hbytes, hplace⟩, ⟨before', after', hrelocs, hbefore, hafter⟩⟩ := h
  refine ⟨⟨a.bytes ++ before, after, by simp [hbytes], ?_⟩,
    ⟨a.relocs ++ before', after', by simp [hrelocs], ?_, hafter⟩⟩
  · rw [List.length_append, ← hplace, Nat.add_assoc]
  · intro r hr
    rcases List.mem_append.mp hr with hr | hr
    · have hin := ha r hr
      omega
    · exact hbefore r hr

/-- The relocations that apply to the bytes of a part are its own. -/
theorem HasPart.filter_relocs (h : HasPart loc c place part) (hpart : Bounded place part) :
    (c.relocs.filter fun r =>
      place ≤ r.offset.toNat ∧ r.offset.toNat < place + part.bytes.length) = part.relocs := by
  obtain ⟨-, before, after, hrelocs, hbefore, hafter⟩ := h
  -- what stands before or after the part does not pass the filter
  have hnone : ∀ rs : List Reloc, (∀ r ∈ rs, r.offset.toNat < place ∨
      place + part.bytes.length ≤ r.offset.toNat) → (rs.filter fun r =>
        place ≤ r.offset.toNat ∧ r.offset.toNat < place + part.bytes.length) = [] := by
    intro rs hrs
    rw [List.filter_eq_nil_iff]
    intro r hr
    have hout := hrs r hr
    rw [decide_eq_true_eq]
    omega
  have hall : (part.relocs.filter fun r =>
      place ≤ r.offset.toNat ∧ r.offset.toNat < place + part.bytes.length) = part.relocs := by
    rw [List.filter_eq_self]
    intro r hr
    exact decide_eq_true (hpart r hr)
  rw [hrelocs, List.filter_append, List.filter_append, hall,
    hnone before fun r hr => .inl (hbefore r hr), hnone after fun r hr => .inr (hafter r hr),
    List.nil_append, List.append_nil]

/-- The bytes at the place of a part are its own. -/
theorem HasPart.take_drop_bytes (h : HasPart loc c place part) :
    (c.bytes.drop (place - loc)).take part.bytes.length = part.bytes := by
  obtain ⟨⟨before, after, hbytes, hplace⟩, -⟩ := h
  have hoffset : place - loc = before.length := by omega
  rw [hbytes, hoffset, List.drop_left, List.take_left]

section Members

variable {α ε : Type} {f : Nat → α → Except ε Chunk} {limit : Nat}
  (hmember : ∀ loc x piece, f loc x = .ok piece → loc + piece.bytes.length < limit →
    Bounded loc piece)

include hmember

/-- The chunk of a list of things with bounded chunks is bounded. -/
theorem bounded_of_concat {as : List α} (h : concat f loc as = .ok c)
    (hlimit : loc + c.bytes.length < limit) : Bounded loc c := by
  refine concat_induction (P := fun loc c => loc + c.bytes.length < limit → Bounded loc c)
    (fun _ _ => bounded_of_relocs_eq_nil rfl) hmember ?_ h hlimit
  intro loc a b ha hb hjoined
  rw [bytes_append, List.length_append] at hjoined
  exact (ha (by omega)).append (hb (by omega))

/-- What a member of a list contributes is a part of the chunk of the list. -/
theorem hasPart_of_concat {as bs : List α} {x : α} (h : concat f loc (as ++ x :: bs) = .ok c)
    (hlimit : loc + c.bytes.length < limit) :
    ∃ before piece, concat f loc as = .ok before ∧
      f (loc + before.bytes.length) x = .ok piece ∧
      HasPart loc c (loc + before.bytes.length) piece := by
  obtain ⟨before, piece, after, hbefore, hpiece, hafter, rfl⟩ := concat_split_eq_ok h
  simp only [bytes_append, List.length_append] at hlimit
  refine ⟨before, piece, hbefore, hpiece, HasPart.append_left ?_ ?_⟩
  · exact (HasPart.refl _ piece).append_right (bounded_of_concat hmember hafter (by omega))
  · exact bounded_of_concat hmember hbefore (by omega)

end Members

end Chunk

section Bounded

variable {p : Profile} {loc : Nat} {c : Chunk}

/-- The relocation of an instruction applies to the instruction. -/
theorem bounded_instChunk (numbered : Inst × Nat) (h : instChunk p loc numbered = .ok c)
    (hlimit : loc + c.bytes.length < 2 * UInt32.size) : c.Bounded loc := by
  obtain ⟨inst, i⟩ := numbered
  obtain ⟨bytes, relocs, -, hrelocs, rfl⟩ := instChunk_eq_ok h
  rcases instRelocs_eq_ok hlimit hrelocs with ⟨-, hnil⟩ | ⟨op, offset, -, hlow, hhigh, hoffset, hone⟩
  · exact Chunk.bounded_of_relocs_eq_nil hnil
  · intro r hr
    have hplace : r.offset = offset := by
      rw [hone, List.mem_singleton] at hr
      rw [hr]
      split
      · rfl
      · rfl
    rw [hplace]
    omega

/-- Jump tables have no relocations. -/
theorem relocs_of_tables {body : List Symbol} {tables : List JumpTable}
    (h : Chunk.concat (tableChunk p body) loc tables = .ok c) : c.relocs = [] := by
  refine Chunk.concat_induction (P := fun _ c => c.relocs = []) (fun _ => rfl) ?_ ?_ h
  · intro loc t piece hpiece
    obtain ⟨entries, -, rfl⟩ := tableChunk_eq_ok hpiece
    rfl
  · intro loc a b ha hb
    rw [Chunk.relocs_append, ha, hb]
    rfl

/-- The body of a function starts where the function does and lies in the function's chunk; nothing
else there has relocations. -/
theorem exists_body_of_funcChunk {f : Func} (h : funcChunk p loc f = .ok c) :
    ∃ body, Chunk.concat (instChunk p) (f.start loc) f.insts.zipIdx = .ok body ∧
      f.start loc + body.bytes.length < 2 * UInt32.size ∧ c.Bounded loc ∧
      c.HasPart loc (f.start loc) body := by
  obtain ⟨fill, start, body, tables, hfill, hstart, hlow, hlength, hbody, htables, rfl⟩ :=
    funcChunk_eq_ok h
  have hplace : start = f.start loc := by
    rw [hstart, hfill, add_length_padding]
    rfl
  -- fill bytes and the function's symbol have no relocations, so the body can be seen behind them
  generalize hopening : Chunk.append { bytes := fill, align := max 1 f.align.toInt.toNat }
    { symbols := [f.textSymbol p start body.bytes.length] } = opening
  have hopeningEnd : loc + opening.bytes.length = start := by
    rw [← hopening, hstart, Chunk.bytes_append, List.append_nil]
  have hopeningBounded : opening.Bounded loc := by
    refine Chunk.bounded_of_relocs_eq_nil ?_
    rw [← hopening]
    rfl
  have hbodyBounded : body.Bounded (loc + opening.bytes.length) := by
    rw [hopeningEnd]
    exact Chunk.bounded_of_concat (fun _ numbered _ => bounded_instChunk numbered) hbody (by omega)
  have htablesBounded : ∀ loc, tables.Bounded loc := fun _ =>
    Chunk.bounded_of_relocs_eq_nil (relocs_of_tables htables)
  have hunwindBounded : ∀ loc, Chunk.Bounded loc { unwind := f.unwindRecords } := fun _ =>
    Chunk.bounded_of_relocs_eq_nil rfl
  rw [← hplace]
  refine ⟨body, hbody, by omega, ?_, ?_⟩
  · exact ((hopeningBounded.append hbodyBounded).append (htablesBounded _)).append
      (hunwindBounded _)
  · rw [← hopeningEnd]
    exact (((Chunk.HasPart.refl _ body).append_left hopeningBounded).append_right
      (htablesBounded _)).append_right (hunwindBounded _)

/-- The relocations of a function apply to its own bytes. -/
theorem bounded_funcChunk {f : Func} (h : funcChunk p loc f = .ok c) : c.Bounded loc := by
  obtain ⟨body, -, -, hbounded, -⟩ := exists_body_of_funcChunk h
  exact hbounded

/-- A placed instruction was assembled at its place, and what it contributes is a part of the section
of code. -/
theorem hasPart_of_placed {u : CodeUnit} (h : Chunk.concat (funcChunk p) 0 u.funcs = .ok c)
    {place : Nat} {inst : Inst} (hplaced : (place, inst) ∈ u.placedInsts) :
    ∃ i piece, instChunk p place (inst, i) = .ok piece ∧
      place + piece.bytes.length < 2 * UInt32.size ∧ c.HasPart 0 place piece := by
  obtain ⟨⟨start, f⟩, hfunc, hinst⟩ := List.mem_flatMap.mp hplaced
  obtain ⟨before, after, hfuncs, rfl⟩ := exists_split_of_mem_placedFrom hfunc
  obtain ⟨before', after', hinsts, rfl⟩ := exists_split_of_mem_placedFrom hinst
  -- first the function in the section, then the instruction in its body; the functions need no
  -- bound from outside, so any does
  rw [hfuncs] at h
  obtain ⟨earlier, whole, hearlier, hwhole, hwholePart⟩ := Chunk.hasPart_of_concat
    (fun _ _ _ hpiece _ => bounded_funcChunk hpiece) h (Nat.lt_succ_self _)
  have hstart : 0 + earlier.bytes.length = before.foldl Func.next 0 :=
    Chunk.end_of_concat (fun _ _ _ => end_of_funcChunk) hearlier
  rw [hstart] at hwhole hwholePart
  obtain ⟨body, hbody, hbodyEnd, -, hbodyPart⟩ := exists_body_of_funcChunk hwhole
  rw [hinsts, List.zipIdx_append, List.zipIdx_cons] at hbody
  obtain ⟨earlier', piece, hearlier', hpiece, hpart⟩ := Chunk.hasPart_of_concat
    (fun _ numbered _ => bounded_instChunk numbered) hbody hbodyEnd
  rw [end_of_body hearlier'] at hpiece hpart
  refine ⟨_, piece, hpiece, ?_, hwholePart.trans (hbodyPart.trans hpart)⟩
  have hend := hpart.end_le
  omega

end Bounded

/-- The relocations of a section whose field starts in a range of its bytes. -/
def Section.relocsIn (s : Section) (start stop : Nat) : List Reloc :=
  s.relocs.filter fun r => start ≤ r.offset.toNat ∧ r.offset.toNat < stop

/-- A placed instruction has its machine code at its place of the section of code, and the
relocations there are those of the instruction. -/
theorem Object.section?_of_placed {p : Profile} {u : CodeUnit} {obj : Object}
    (h : Object.assemble p u = .ok obj) {place : Nat} {inst : Inst}
    (hplaced : (place, inst) ∈ u.placedInsts) :
    ∃ text bytes i, obj.section? p.textSection = some text ∧
      decodeEncoding inst.encoding = .ok bytes ∧ place + bytes.length < 2 * UInt32.size ∧
      (text.data.drop place).take bytes.length = bytes ∧
      instRelocs p i place inst bytes = .ok (text.relocsIn place (place + bytes.length)) := by
  have hfuncs : u.funcs ≠ [] := by
    intro hnil
    simp [CodeUnit.placedInsts, hnil, placedFrom] at hplaced
  obtain ⟨text, htext, hsection⟩ := Object.section?_textSection h hfuncs
  obtain ⟨i, piece, hpiece, hend, hpart⟩ := hasPart_of_placed htext hplaced
  have hbounded := bounded_instChunk (inst, i) hpiece hend
  obtain ⟨bytes, relocs, hbytes, hrelocs, rfl⟩ := instChunk_eq_ok hpiece
  refine ⟨_, bytes, i, hsection, hbytes, hend, hpart.take_drop_bytes, ?_⟩
  rw [hrelocs, Section.relocsIn, Object.sectionOf, hpart.filter_relocs hbounded]

end CodeEmission
