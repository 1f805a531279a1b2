import CodeEmission.Proofs.Object.SplitData

/-!
# Fields of Relocations

The linker fills the field of every relocation: four or eight bytes from its offset on. Here are the
fields of an assembled section as a whole. Each lies in the machine code of one instruction or in one
value, and they come one after another without overlap, so a linker may fill them in any order.

* `FieldsIn`: the fields of some bytes, and the parts they lie in. What two runs of bytes have is kept
  when they are joined (`FieldsIn.append`).
* `fieldsIn_instChunk` and `fieldsIn_valueChunk`: one instruction and one value. A fixup that is close
  to the largest offset passes the test for room, since its end wraps to a negative number; that the
  place of the field has to be a word rules it out.
* `fieldsIn_funcs` and `fieldsIn_data`: the two sections, by the induction over chunks at their places.
* `Object.fields_apart`: the same of the sections of an object.
-/

namespace CodeEmission

/-! ## Fields and parts -/

theorem RelocKind.width_pos {kind : RelocKind} (h : ∀ text, kind ≠ .other text) : 0 < kind.width := by
  match kind with
  | pcRel32 | abs32 | abs64 => decide
  | other text => exact absurd rfl (h text)

/-- Where the field of a relocation ends. -/
def Reloc.stop (r : Reloc) : Nat :=
  r.offset.toNat + r.kind.width

/-- The machine code of the instructions of a unit, each where it stands in the section of code. -/
def CodeUnit.codeParts (u : CodeUnit) : List (Nat × List UInt8) :=
  u.placedInsts.map (Prod.map id Inst.code)

/-- The bytes of the values of a unit, each where they stand in the section of data. -/
def CodeUnit.valueParts (u : CodeUnit) : List (Nat × List UInt8) :=
  u.placedValues.map (Prod.map id Datum.image)

/-- Relocations, in order, apply to bytes that start at an offset: each has its field in one of the
given parts, and the fields come one after another. -/
structure FieldsIn (parts : List (Nat × List UInt8)) (loc : Nat) (data : List UInt8)
    (relocs : List Reloc) : Prop where
  /-- The linker knows how to fill the field. -/
  known : ∀ r ∈ relocs, ∀ text, r.kind ≠ .other text
  /-- The field lies in a part, which stands in the bytes at its place. -/
  inside : ∀ r ∈ relocs, ∃ place bytes, (place, bytes) ∈ parts ∧
    (∃ before after, data = before ++ (bytes ++ after) ∧ loc + before.length = place) ∧
    place ≤ r.offset.toNat ∧ r.stop ≤ place + bytes.length
  /-- A field ends before the next one starts. -/
  apart : relocs.Pairwise fun a b => a.stop ≤ b.offset.toNat

namespace FieldsIn

variable {parts parts' : List (Nat × List UInt8)} {loc : Nat} {data data' : List UInt8}
  {relocs relocs' : List Reloc}

/-- Bytes without relocations have no fields. -/
theorem nil (parts : List (Nat × List UInt8)) (loc : Nat) (data : List UInt8) :
    FieldsIn parts loc data [] :=
  ⟨nofun, nofun, .nil⟩

/-- One field in one part. -/
theorem singleton {r : Reloc} (hknown : ∀ text, r.kind ≠ .other text) (hlow : loc ≤ r.offset.toNat)
    (hhigh : r.stop ≤ loc + data.length) : FieldsIn [(loc, data)] loc data [r] where
  known := List.forall_mem_singleton.mpr hknown
  inside := List.forall_mem_singleton.mpr
    ⟨loc, data, List.mem_singleton_self _, ⟨[], [], (List.append_nil _).symm, rfl⟩, hlow, hhigh⟩
  apart := List.pairwise_singleton _ r

/-- The fields of bytes lie between their start and their end. -/
theorem bounded (h : FieldsIn parts loc data relocs) {r : Reloc} (hr : r ∈ relocs) :
    loc ≤ r.offset.toNat ∧ r.stop ≤ loc + data.length := by
  obtain ⟨place, bytes, -, ⟨before, after, rfl, hplace⟩, hlow, hhigh⟩ := h.inside r hr
  simp only [List.length_append]
  omega

/-- Joined bytes have the fields of both. -/
theorem append (h : FieldsIn parts loc data relocs)
    (h' : FieldsIn parts' (loc + data.length) data' relocs') :
    FieldsIn (parts ++ parts') loc (data ++ data') (relocs ++ relocs') where
  known := List.forall_mem_append.mpr ⟨h.known, h'.known⟩
  inside := by
    refine List.forall_mem_append.mpr ⟨?_, ?_⟩
    · intro r hr
      obtain ⟨place, bytes, hmem, ⟨before, after, rfl, hplace⟩, hfield⟩ := h.inside r hr
      refine ⟨place, bytes, List.mem_append_left _ hmem, ⟨before, after ++ data', ?_, hplace⟩, hfield⟩
      simp only [List.append_assoc]
    · intro r hr
      obtain ⟨place, bytes, hmem, ⟨before, after, rfl, hplace⟩, hfield⟩ := h'.inside r hr
      refine ⟨place, bytes, List.mem_append_right _ hmem, ⟨data ++ before, after, ?_, ?_⟩, hfield⟩
      · rw [List.append_assoc]
      · rw [List.length_append, ← hplace, Nat.add_assoc]
  apart := by
    apply List.pairwise_append.mpr
    refine ⟨h.apart, h'.apart, fun a ha b hb => ?_⟩
    -- the first bytes end where the second start
    exact Nat.le_trans (h.bounded ha).2 (h'.bounded hb).1

/-- Fields one after another have growing offsets, since none is empty. -/
theorem pairwise_offset (h : FieldsIn parts loc data relocs) :
    relocs.Pairwise fun a b => a.offset < b.offset := by
  refine h.apart.imp_of_mem fun {a b} ha _ hab => ?_
  have hwidth : 0 < a.kind.width := RelocKind.width_pos (h.known a ha)
  show a.offset.toNat < b.offset.toNat
  rw [Reloc.stop] at hab
  omega

/-- The chunk of a list has the fields of its members, each in the parts of the member at its place.
Members may need that the list ends below a limit. -/
theorem of_concat {α ε : Type} {f : Nat → α → Except ε Chunk} {next : Nat → α → Nat}
    {image : Nat → α → List (Nat × List UInt8)} {limit : Nat} {as : List α}
    (hmember : ∀ loc, ∀ a ∈ as, ∀ piece, f loc a = .ok piece →
      (loc + piece.bytes.length < limit →
        FieldsIn (image loc a) loc piece.bytes piece.relocs) ∧
      loc + piece.bytes.length = next loc a)
    {c : Chunk} (h : Chunk.concat f loc as = .ok c) (hlimit : loc + c.bytes.length < limit) :
    FieldsIn ((placedFrom next loc as).flatMap fun (loc, a) => image loc a) loc c.bytes
      c.relocs := by
  refine Chunk.concat_induction_placed (R := fun loc c parts =>
    loc + c.bytes.length < limit → FieldsIn parts loc c.bytes c.relocs) (fun loc _ => .nil [] loc [])
    ?_ hmember h hlimit
  intro loc a b xs ys ha hb hjoined
  rw [Chunk.bytes_append, List.length_append] at hjoined
  exact (ha (by omega)).append (hb (by omega))

/-- Numbered things, each one part, have their fields in these parts. -/
theorem of_numbered {α ε : Type} {f : Nat → α × Nat → Except ε Chunk} {next : Nat → α → Nat}
    {code : α → List UInt8} {limit : Nat} {as : List α}
    (hmember : ∀ loc, ∀ x ∈ as.zipIdx, ∀ piece, f loc x = .ok piece →
      (loc + piece.bytes.length < limit →
        FieldsIn [(loc, code x.1)] loc piece.bytes piece.relocs) ∧
      loc + piece.bytes.length = next loc x.1)
    {c : Chunk} (h : Chunk.concat f loc as.zipIdx = .ok c) (hlimit : loc + c.bytes.length < limit) :
    FieldsIn ((placedFrom next loc as).map (Prod.map id code)) loc c.bytes c.relocs := by
  have hfields := of_concat hmember h hlimit
  rw [flatMap_placedFrom_zipIdx (fun place a => [(place, code a)]) as 0] at hfields
  rw [List.map_eq_flatMap]
  exact hfields

end FieldsIn

/-! ## Code -/

section Code

variable {p : Profile} {loc : Nat} {c : Chunk}

/-- The field of an instruction lies in its machine code. -/
theorem fieldsIn_instChunk {inst : Inst} {i : Nat} (h : instChunk p loc (inst, i) = .ok c)
    (hlimit : loc + c.bytes.length < 2 * UInt32.size) :
    FieldsIn [(loc, inst.code)] loc c.bytes c.relocs := by
  obtain ⟨bytes, relocs, hbytes, hrelocs, rfl⟩ := instChunk_eq_ok h
  have hcode : inst.code = bytes := by rw [Inst.code, hbytes]
  show FieldsIn [(loc, inst.code)] loc bytes relocs
  rw [hcode]
  have hbound : loc + bytes.length < 2 * UInt32.size := hlimit
  rcases instRelocs_eq_ok hbound hrelocs with ⟨-, rfl⟩ | ⟨op, offset, -, hlow, hhigh, hoffset, rfl⟩
  · exact .nil _ _ _
  · -- an absolute field and a displacement differ in their kind, not in their width
    split
    all_goals
      apply FieldsIn.singleton
      · intro text
        simp
      · show loc ≤ offset.toNat
        omega
      · show offset.toNat + 4 ≤ loc + bytes.length
        omega

/-- A fixup at the largest offset passes the checks, since its end wraps to a negative number. There is
no object with it all the same, and none wherever the sum of the offsets wraps too. -/
example :
    let inst : Inst := { op := "call", encoding := "e800000000", fixupOffset := Int64.maxValue
                         operands := [{ kind := .sym, sym := "callee" }] }
    inst.faults [] 0 = [] ∧ (instChunk Profile.host 0 (inst, 0)).toOption = none ∧
      (instChunk Profile.host 16 (inst, 0)).toOption = none := by
  decide +kernel

/-- The fields of a function lie in the machine code of its instructions. -/
theorem fieldsIn_funcChunk {f : Func} (h : funcChunk p loc f = .ok c) :
    FieldsIn ((placedFrom Inst.next (f.start loc) f.insts).map (Prod.map id Inst.code)) loc c.bytes
      c.relocs := by
  obtain ⟨fill, -, body, tables, hfill, rfl, hlow, hlength, hbody, htables, rfl⟩ := funcChunk_eq_ok h
  have hplace : loc + fill.length = f.start loc := by
    rw [hfill]
    exact add_length_padding _ _ _
  -- the body starts at a word and is no longer than a word
  have hfields := FieldsIn.of_numbered (fun _ _ _ _ hpiece =>
    ⟨fieldsIn_instChunk hpiece, end_of_instChunk hpiece⟩) hbody (by omega)
  rw [← hplace]
  -- fill bytes come before it and jump tables after it, and neither has fields
  have hall := ((FieldsIn.nil [] loc fill).append hfields).append (.nil [] _ tables.bytes)
  simpa [relocs_of_tables htables] using hall

/-- The fields of functions lie in the machine code of instructions. -/
theorem fieldsIn_funcs {u : CodeUnit} (h : Chunk.concat (funcChunk p) 0 u.funcs = .ok c) :
    FieldsIn u.codeParts 0 c.bytes c.relocs := by
  have hfields := FieldsIn.of_concat (fun _ _ _ _ hpiece =>
    ⟨fun _ => fieldsIn_funcChunk hpiece, end_of_funcChunk hpiece⟩) h (Nat.lt_succ_self _)
  rw [CodeUnit.codeParts, CodeUnit.placedInsts, List.map_flatMap]
  exact hfields

end Code

/-! ## Data -/

section Data

variable {p : Profile} {loc : Nat} {c : Chunk}

/-- The field of a value is the whole of it. -/
theorem fieldsIn_valueChunk {v : Datum} {i : Nat} (hwell : v.WellFormed)
    (h : valueChunk loc (v, i) = .ok c) : FieldsIn [(loc, v.image)] loc c.bytes c.relocs := by
  rw [(image_of_valueChunk h).1]
  rcases valueChunk_eq_ok h with ⟨-, bytes, -, rfl⟩ | ⟨hsym, hloc, rfl⟩
  · exact .nil _ _ _
  · have hplace : (UInt32.ofNat loc).toNat = loc := UInt32.toNat_ofNat_of_lt' hloc
    have himage : v.image.length = v.size.toInt.toNat := by
      rw [Datum.image, if_neg hsym, List.length_replicate]
    apply FieldsIn.singleton
    · intro text
      show (if v.size = 8 then RelocKind.abs64 else .abs32) ≠ .other text
      split <;> simp
    · exact Nat.le_of_eq hplace.symm
    · apply Nat.le_of_eq
      rw [Reloc.stop, hplace, Datum.width_of_symbol hwell.1 (hwell.2.resolve_left hsym), himage]

/-- The fields of a data object lie in its values. -/
theorem fieldsIn_dataChunk {d : DataObject} (hwell : d.WellFormed) (h : dataChunk p loc d = .ok c) :
    FieldsIn ((placedFrom Datum.next (d.piece loc).start d.values).map (Prod.map id Datum.image)) loc
      c.bytes c.relocs := by
  obtain ⟨fill, -, body, hfill, rfl, -, -, hbody, rfl⟩ := dataChunk_eq_ok h
  have hplace : loc + fill.length = (d.piece loc).start := by
    rw [hfill]
    exact add_length_padding _ _ _
  have hfields := FieldsIn.of_numbered (fun _ _ hnumbered _ hpiece =>
    ⟨fun _ => fieldsIn_valueChunk (hwell.values _ (List.fst_mem_of_mem_zipIdx hnumbered)) hpiece,
      end_of_valueChunk hpiece⟩) hbody (Nat.lt_succ_self _)
  rw [← hplace]
  have hall := (FieldsIn.nil [] loc fill).append hfields
  simpa using hall

/-- The fields of data objects lie in values. -/
theorem fieldsIn_data {u : CodeUnit} (hwell : ∀ d ∈ u.data, d.WellFormed)
    (h : Chunk.concat (dataChunk p) 0 u.data = .ok c) :
    FieldsIn u.valueParts 0 c.bytes c.relocs := by
  have hfields := FieldsIn.of_concat (fun _ d hd _ hpiece =>
    ⟨fun _ => fieldsIn_dataChunk (hwell d hd) hpiece, end_of_dataChunk hpiece⟩) h
    (Nat.lt_succ_self _)
  rw [CodeUnit.valueParts, CodeUnit.placedValues, List.map_flatMap]
  exact hfields

end Data

/-! ## Objects -/

/-- The fields of relocations are in bounds, ordered and disjoint. In every section of the object of a
unit that passes the checks the offsets of relocations grow, each field of four or eight bytes lies in
the machine code of one instruction or in one value, which stands in the section at its place, and a
field ends before the next one starts. -/
theorem Object.fields_apart {p : Profile} {u : CodeUnit} {obj : Object}
    (hverify : verify (some u) = .ok ()) (h : assemble p u = .ok obj) : ∀ s ∈ obj.sections,
      (s.relocs.Pairwise fun a b => a.offset < b.offset) ∧
        ((s.name = p.textSection ∧ FieldsIn u.codeParts 0 s.data s.relocs) ∨
          (s.name = p.dataSection ∧ FieldsIn u.valueParts 0 s.data s.relocs)) := by
  intro s hs
  rcases sections_of_assemble h hs with ⟨text, htext, rfl⟩ | ⟨data, hdata, rfl⟩
  · have hfields := fieldsIn_funcs htext
    exact ⟨hfields.pairwise_offset, .inl ⟨rfl, hfields⟩⟩
  · have hwell : ∀ d ∈ u.data, d.WellFormed := fun d hd =>
      DataObject.faults_eq_nil_iff.mp (data_faults_of_verify hverify hd)
    have hfields := fieldsIn_data hwell hdata
    exact ⟨hfields.pairwise_offset, .inr ⟨rfl, hfields⟩⟩

/-- A call, whose field is at its end, an instruction with its field in the middle, and data with
addresses of eight and of four bytes around a byte that is none. -/
def crossing : CodeUnit :=
  { name := "crossing"
    funcs := [{ name := "caller", linkage := .global, align := 16
                insts := [{ op := "call", encoding := "e800000000"
                            operands := [{ kind := .sym, sym := "callee" }] },
                  { op := "movb", encoding := "c6050000000001", fixupOffset := 2
                    operands := [{ kind := .mem, base := "rip", sym := "flag" }] }] }]
    data := [{ name := "table", linkage := .internal, align := 8
               values := [{ size := 8, sym := "caller" }, { size := 1, int := 7 },
                 { size := 4, sym := "flag" }] }] }

/-- The fields of its code are the bytes 1 to 4 and 7 to 10, those of its data the bytes 0 to 7 and 9
to 12. -/
theorem Object.fields_apart_crossing :
    verify (some crossing) = .ok () ∧ ∃ obj, assemble Profile.host crossing = .ok obj ∧
      (obj.sections.map fun s => s.relocs.map fun r => (r.offset.toNat, r.stop)) =
        [[(1, 5), (7, 11)], [(0, 8), (9, 13)]] ∧
      ∀ s ∈ obj.sections, (s.relocs.Pairwise fun a b => a.offset < b.offset) ∧
        (FieldsIn [(0, [0xe8, 0, 0, 0, 0]), (5, [0xc6, 0x05, 0, 0, 0, 0, 1])] 0 s.data s.relocs ∨
          FieldsIn [(0, [0, 0, 0, 0, 0, 0, 0, 0]), (8, [7]), (9, [0, 0, 0, 0])] 0 s.data s.relocs) := by
  have hverify : verify (some crossing) = .ok () := by decide +kernel
  have hfields : (assemble Profile.host crossing).toOption.map (fun obj =>
      obj.sections.map fun s => s.relocs.map fun r => (r.offset.toNat, r.stop)) =
        some [[(1, 5), (7, 11)], [(0, 8), (9, 13)]] := by decide +kernel
  have hcode : crossing.codeParts =
      [(0, [0xe8, 0, 0, 0, 0]), (5, [0xc6, 0x05, 0, 0, 0, 0, 1])] := by decide +kernel
  have hvalues : crossing.valueParts =
      [(0, [0, 0, 0, 0, 0, 0, 0, 0]), (8, [7]), (9, [0, 0, 0, 0])] := by decide +kernel
  match hobj : assemble Profile.host crossing with
  | .error e =>
    rw [hobj] at hfields
    cases hfields
  | .ok obj =>
    rw [hobj] at hfields
    refine ⟨hverify, obj, rfl, Option.some.inj hfields, fun s hs => ?_⟩
    obtain ⟨hgrow, hparts⟩ := fields_apart hverify hobj s hs
    rw [hcode, hvalues] at hparts
    exact ⟨hgrow, hparts.imp And.right And.right⟩

end CodeEmission
