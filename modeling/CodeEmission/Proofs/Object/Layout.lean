import CodeEmission.Proofs.CodeUnit.DefinedNames
import CodeEmission.Proofs.Object.Pieces
import CodeEmission.Proofs.Object.Symbols
import CodeEmission.Proofs.Platform.Conventions
import CodeEmission.Proofs.Platform.Host

/-!
# The Layout of an Object

What the sections of an object hold and where, computed from the unit alone. A function is the
machine code of its instructions, with its jump tables after it; a data object is its values. Each
stands at the next multiple of its alignment.

* `CodeUnit.textPieces`, `CodeUnit.dataPieces`: the pieces of the two sections.
* `lays_funcChunk`, `lays_dataChunk`: what is assembled for an entity are its pieces, with its
  symbols.
* `Object.extents_of_assemble`: the symbols say where the pieces lie, and no offset or size is cut.
* `Object.laidOut_of_assemble`: the sections and symbols of an assembled object.
-/

namespace CodeEmission

/-! ## Pieces and symbols of a unit -/

/-- The name and kind of a symbol, with the place and size it stands for. -/
structure Extent where
  /-- The name. -/
  name : String
  /-- What the symbol stands for. -/
  kind : SymbolKind
  /-- Where that starts. -/
  start : Nat
  /-- How many bytes it has. -/
  size : Nat
  deriving DecidableEq, Repr

/-- What a symbol of an object says. -/
def Symbol.extent (s : Symbol) : Extent :=
  { name := s.name, kind := s.kind, start := s.offset.toNat, size := s.size.toNat }

/-- The symbol of a piece. -/
def Piece.extent (kind : SymbolKind) (q : Piece) : Extent :=
  { name := q.name, kind, start := q.start, size := q.bytes.length }

/-- A label at a place. -/
def Extent.label (name : String) (place : Nat) : Extent :=
  { name, kind := .label, start := place, size := 0 }

/-- The machine code of an instruction; none if it cannot be read. -/
def Inst.code (inst : Inst) : List UInt8 :=
  match decodeEncoding inst.encoding with
  | .ok bytes => bytes
  | .error _ => []

/-- The machine code of a function. -/
def Func.code (f : Func) : List UInt8 :=
  f.insts.flatMap Inst.code

/-- The code of a function that comes after an offset. -/
def Func.codePiece (loc : Nat) (f : Func) : Piece :=
  { name := f.emittedName, start := f.start loc, align := f.align.toInt.toNat, bytes := f.code }

/-- The label of an instruction at a place, if it has one. -/
def Inst.labelExtents (place : Nat) (inst : Inst) : List Extent :=
  inst.labels.map fun label => .label label place

/-- The labels of a function's instructions, each where the instruction starts. -/
def Func.labelExtents (loc : Nat) (f : Func) : List Extent :=
  (placedFrom Inst.next (f.start loc) f.insts).flatMap fun (place, inst) => inst.labelExtents place

/-- Where the last instruction with a label starts. -/
def Extent.placeOf (labels : List Extent) (target : String) : Nat :=
  ((labels.reverse.find? fun e => e.name = target).map Extent.start).getD 0

/-- The bytes of a jump table at `base`: for each target its distance from the table. -/
def JumpTable.image (labels : List Extent) (base : Nat) (t : JumpTable) : List UInt8 :=
  t.targets.flatMap fun target =>
    littleEndian 4 (((Extent.placeOf labels target : Int) - base) % UInt32.size).toNat

/-- A jump table that comes after an offset. -/
def JumpTable.piece (labels : List Extent) (loc : Nat) (t : JumpTable) : Piece :=
  { name := t.label, start := alignUp 4 loc, align := 4, bytes := t.image labels (alignUp 4 loc) }

/-- The jump tables of a function that comes after an offset. -/
def Func.tablePieces (loc : Nat) (f : Func) : List Piece :=
  (placedFrom JumpTable.next (f.codePiece loc).stop f.jumpTables).map fun (place, t) =>
    t.piece (f.labelExtents loc) place

/-- The labels of a function's jump tables. -/
def Func.tableExtents (loc : Nat) (f : Func) : List Extent :=
  (f.tablePieces loc).map fun q => .label q.name q.start

/-- The symbols of a function that comes after an offset: its own, and its labels. -/
def Func.symbolExtents (loc : Nat) (f : Func) : List Extent :=
  (f.codePiece loc).extent .func :: (f.labelExtents loc ++ f.tableExtents loc)

/-- The bytes of a value: those of its integer, or zeros for the linker to fill. -/
def Datum.image (v : Datum) : List UInt8 :=
  if v.sym = "" then littleEndian v.size.toInt.toNat v.int.toUInt64.toNat
  else List.replicate v.size.toInt.toNat 0

/-- The bytes of a data object. -/
def DataObject.image (d : DataObject) : List UInt8 :=
  d.values.flatMap Datum.image

/-- A data object that comes after an offset. -/
def DataObject.piece (loc : Nat) (d : DataObject) : Piece :=
  { name := d.emittedName, start := alignUp d.align.toInt.toNat loc
    align := d.align.toInt.toNat, bytes := d.image }

/-- Where a data object that comes after an offset ends. -/
def DataObject.next (loc : Nat) (d : DataObject) : Nat :=
  (d.piece loc).stop

namespace CodeUnit

/-- The functions of a unit, each with the offset it comes after. -/
def placedFuncs (u : CodeUnit) : List (Nat × Func) :=
  placedFrom Func.next 0 u.funcs

/-- The code of the functions. -/
def funcPieces (u : CodeUnit) : List Piece :=
  u.placedFuncs.map fun (loc, f) => f.codePiece loc

/-- What the section of functions holds: the code of each function and then its jump tables. -/
def textPieces (u : CodeUnit) : List Piece :=
  u.placedFuncs.flatMap fun (loc, f) => f.codePiece loc :: f.tablePieces loc

/-- What the section of data holds. -/
def dataPieces (u : CodeUnit) : List Piece :=
  (placedFrom DataObject.next 0 u.data).map fun (loc, d) => d.piece loc

/-- The labels of a unit: for each function those of its instructions and then those of its jump
tables. -/
def labelExtents (u : CodeUnit) : List Extent :=
  u.placedFuncs.flatMap fun (loc, f) => f.labelExtents loc ++ f.tableExtents loc

end CodeUnit

/-! ## The chunks of lists -/

section Lists

variable {α β : Type} {next : Nat → α → Nat} {image : Nat → α → List β} {loc : Nat}

/-- Numbering things does not change their places. -/
theorem flatMap_placedFrom_zipIdx (image : Nat → α → List β) (as : List α) (i : Nat) :
    ((placedFrom (fun loc (x : α × Nat) => next loc x.1) loc (as.zipIdx i)).flatMap
        fun (loc, x) => image loc x.1) =
      (placedFrom next loc as).flatMap fun (loc, a) => image loc a := by
  induction as generalizing loc i with
  | nil => rfl
  | cons a rest ih =>
    rw [List.zipIdx_cons, placedFrom, placedFrom, List.flatMap_cons, List.flatMap_cons, ih]

/-- What is read off chunks one after another is read off the members of a list at their places. -/
theorem Chunk.view_of_concat {ε : Type} {f : Nat → α → Except ε Chunk} (view : Chunk → List β)
    (hempty : view {} = []) (happend : ∀ a b, view (a.append b) = view a ++ view b)
    {as : List α} (hmember : ∀ loc, ∀ a ∈ as, ∀ piece, f loc a = .ok piece →
      view piece = image loc a ∧ loc + piece.bytes.length = next loc a)
    {c : Chunk} (h : concat f loc as = .ok c) :
    view c = (placedFrom next loc as).flatMap fun (loc, a) => image loc a := by
  refine concat_induction_placed (R := fun _ c xs => view c = xs) (fun _ => hempty) ?_ hmember h
  intro loc a b xs ys ha hb
  rw [happend, ha, hb]

/-- The bytes of numbered things that ask for no alignment are those of the things, wherever they
lie. -/
theorem Chunk.bytes_of_numbered {ε : Type} {f : Nat → α × Nat → Except ε Chunk}
    {code : α → List UInt8}
    (hmember : ∀ loc a i piece, f loc (a, i) = .ok piece → piece.bytes = code a ∧ piece.align = 1)
    {as : List α} {i : Nat} {c : Chunk} (h : concat f loc (as.zipIdx i) = .ok c) :
    c.bytes = as.flatMap code ∧ c.align = 1 := by
  induction as generalizing loc i c with
  | nil =>
    rw [concat_nil_eq_ok_iff.mp h]
    exact ⟨rfl, rfl⟩
  | cons a rest ih =>
    rw [List.zipIdx_cons] at h
    obtain ⟨piece, later, hpiece, hlater, rfl⟩ := concat_cons_eq_ok_iff.mp h
    obtain ⟨hbytes, halign⟩ := hmember loc a i piece hpiece
    obtain ⟨hbytes', halign'⟩ := ih hlater
    rw [bytes_append, hbytes, hbytes', List.flatMap_cons]
    exact ⟨rfl, by rw [append, halign, halign']; rfl⟩

end Lists

/-- The symbols of a chunk with their places and sizes. -/
def Chunk.extents (c : Chunk) : List Extent :=
  c.symbols.map Symbol.extent

@[simp]
theorem Chunk.extents_append (a b : Chunk) : (a.append b).extents = a.extents ++ b.extents :=
  List.map_append

/-- An entity with fill bytes before it is one piece, and its symbol comes first. -/
theorem Chunk.lays_entity {fill : UInt8} {loc : Nat} {q : Piece} {symbol : Symbol}
    {body : Chunk} (hstart : q.start = alignUp q.align loc)
    (hpower : ∃ k < 32, max 1 q.align = 2 ^ k) (hbytes : body.bytes = q.bytes)
    (halign : body.align = 1) {c : Chunk}
    (hc : c = (append { bytes := padding q.align loc fill, align := max 1 q.align }
      { symbols := [symbol] }).append body) :
    c.Lays fill loc [q] ∧ loc + c.bytes.length = q.stop ∧
      c.extents = symbol.extent :: body.extents := by
  subst hc
  have hall : ((append { bytes := padding q.align loc fill, align := max 1 q.align }
      { symbols := [symbol] }).append body).bytes = padding q.align loc fill ++ q.bytes := by
    rw [bytes_append, bytes_append, List.append_nil, hbytes]
  refine ⟨.piece hstart hpower hall ?_, ?_, ?_⟩
  · simp only [append, halign]
    omega
  · rw [hall, List.length_append, ← Nat.add_assoc, add_length_padding, ← hstart, Piece.stop]
  · rw [extents_append, extents_append]
    rfl

/-- The symbol of a piece says where it lies when neither its place nor its size is cut. -/
theorem Piece.extent_eq {q : Piece} {symbol : Symbol} {size : Nat} (hname : symbol.name = q.name)
    (hoffset : symbol.offset = UInt32.ofNat q.start) (hsize : symbol.size = UInt32.ofNat size)
    (hlength : size = q.bytes.length) (hstartLt : q.start < UInt32.size)
    (hsizeLt : size < UInt32.size) : symbol.extent = q.extent symbol.kind := by
  rw [Symbol.extent, hname, hoffset, hsize, UInt32.toNat_ofNat_of_lt' hstartLt,
    UInt32.toNat_ofNat_of_lt' hsizeLt, hlength]
  rfl

/-! ## Functions -/

section Functions

variable {p : Profile} {loc : Nat} {c : Chunk}

theorem lt_size_of_instChunk {inst : Inst} {i : Nat} (h : instChunk p loc (inst, i) = .ok c)
    (hlabel : inst.label ≠ "") : loc < UInt32.size := by
  unfold instChunk at h
  dsimp only at h
  rw [if_neg hlabel] at h
  cases hsymbol : symbolAt p.textSection inst.label .label .internal loc 0 with
  | error e =>
    rw [hsymbol] at h
    cases h
  | ok s => exact (symbolAt_eq_ok_iff.mp hsymbol).1

/-- The label of an assembled instruction stands where the instruction starts. -/
theorem extents_of_instChunk {inst : Inst} {i : Nat} (h : instChunk p loc (inst, i) = .ok c) :
    c.extents = inst.labelExtents loc := by
  have hlt := lt_size_of_instChunk h
  obtain ⟨bytes, relocs, -, -, rfl⟩ := instChunk_eq_ok h
  rw [Chunk.extents, Inst.labelSymbols, Inst.labelExtents, Inst.labels]
  split
  · rfl
  next hlabel =>
    simp only [List.map_cons, List.map_nil, Symbol.extent, Extent.label,
      UInt32.toNat_ofNat_of_lt' (hlt hlabel)]
    rfl

/-- The body of a function is the machine code of its instructions, and its labels stand at the
starts of these. -/
theorem body_of_concat {insts : List Inst}
    (h : Chunk.concat (instChunk p) loc insts.zipIdx = .ok c) :
    c.bytes = insts.flatMap Inst.code ∧ c.align = 1 ∧
      c.extents =
        (placedFrom Inst.next loc insts).flatMap fun (place, inst) => inst.labelExtents place := by
  have hbytes : ∀ loc inst i piece, instChunk p loc (inst, i) = .ok piece →
      piece.bytes = inst.code ∧ piece.align = 1 := by
    intro loc inst i piece hpiece
    obtain ⟨bytes, relocs, hdecoded, -, rfl⟩ := instChunk_eq_ok hpiece
    simp only [Inst.code, hdecoded, and_self]
  have hextents : ∀ loc, ∀ numbered ∈ insts.zipIdx, ∀ piece,
      instChunk p loc numbered = .ok piece → piece.extents = numbered.1.labelExtents loc ∧
        loc + piece.bytes.length = numbered.1.next loc :=
    fun _ _ _ _ hpiece => ⟨extents_of_instChunk hpiece, end_of_instChunk hpiece⟩
  obtain ⟨hcode, halign⟩ := Chunk.bytes_of_numbered hbytes h
  refine ⟨hcode, halign, ?_⟩
  rw [Chunk.view_of_concat Chunk.extents rfl Chunk.extents_append hextents h]
  exact flatMap_placedFrom_zipIdx Inst.labelExtents insts 0

/-- The offset of a label among symbols is its place. -/
theorem labelOffset?_eq_some {symbols : List Symbol} {target : String} {offset : Nat}
    (h : labelOffset? symbols target = some offset) :
    Extent.placeOf (symbols.map Symbol.extent) target = offset := by
  have hfind : ((symbols.map Symbol.extent).reverse.find? fun e => e.name = target) =
      (symbols.reverse.find? fun s => s.name = target).map Symbol.extent := by
    rw [← List.map_reverse, List.find?_map]
    rfl
  rw [labelOffset?] at h
  obtain ⟨s, hs, rfl⟩ := Option.map_eq_some_iff.mp h
  rw [Extent.placeOf, hfind, hs]
  rfl

/-- The entries of a jump table are the distances of its targets. -/
theorem tableEntries_eq_ok {symbols : List Symbol} {base : Nat} {targets : List String}
    {bytes : List UInt8} (h : tableEntries symbols base targets = .ok bytes) :
    bytes = targets.flatMap fun target => littleEndian 4
      (((Extent.placeOf (symbols.map Symbol.extent) target : Int) - base) % UInt32.size).toNat := by
  induction targets generalizing bytes with
  | nil =>
    rw [tableEntries, Except.ok.injEq] at h
    exact h.symm
  | cons target rest ih =>
    obtain ⟨offset, later, hoffset, -, hlater, rfl⟩ := tableEntries_cons_eq_ok h
    rw [List.flatMap_cons, labelOffset?_eq_some hoffset, ← ih hlater]

/-- An assembled jump table is its piece, and its label stands at the start of it. -/
theorem lays_tableChunk {body : List Symbol} {t : JumpTable}
    (h : tableChunk p body loc t = .ok c) :
    c.Lays p.textFill loc [t.piece (body.map Symbol.extent) loc] ∧
      c.extents = [.label t.label (alignUp 4 loc)] := by
  -- the symbol of the table exists, so its place was not cut
  have hstart : alignUp 4 loc < UInt32.size := by
    unfold tableChunk at h
    dsimp only at h
    rw [add_length_padding] at h
    cases hsymbol : symbolAt p.textSection t.label .label .internal (alignUp 4 loc) 0 with
    | error e =>
      rw [hsymbol] at h
      cases h
    | ok s => exact (symbolAt_eq_ok_iff.mp hsymbol).1
  obtain ⟨entries, hentries, rfl⟩ := tableChunk_eq_ok h
  rw [add_length_padding] at hentries
  constructor
  · refine .piece rfl ⟨2, by decide, rfl⟩ ?_ rfl
    rw [tableEntries_eq_ok hentries]
    rfl
  · simp only [Chunk.extents, List.map_cons, List.map_nil, Symbol.extent, Extent.label,
      add_length_padding, UInt32.toNat_ofNat_of_lt' hstart]
    rfl

/-- The jump tables after a body are their pieces, and their labels stand at the starts of these. -/
theorem lays_tables {body : List Symbol} {labels : List Extent} {tables : List JumpTable}
    (hlabels : body.map Symbol.extent = labels)
    (h : Chunk.concat (tableChunk p body) loc tables = .ok c) :
    c.Lays p.textFill loc ((placedFrom JumpTable.next loc tables).map fun (place, t) =>
        t.piece labels place) ∧
      c.extents = (placedFrom JumpTable.next loc tables).map fun (place, t) =>
        .label t.label (alignUp 4 place) := by
  have hlays := Chunk.lays_of_concat (fun _ _ _ _ hpiece =>
    ⟨(lays_tableChunk hpiece).1, end_of_tableChunk hpiece⟩) h
  have hextents := Chunk.view_of_concat Chunk.extents rfl Chunk.extents_append
    (fun _ _ _ _ hpiece => ⟨(lays_tableChunk hpiece).2, end_of_tableChunk hpiece⟩) h
  rw [hlabels] at hlays
  rw [List.map_eq_flatMap, List.map_eq_flatMap]
  exact ⟨hlays, hextents⟩

/-- An assembled function is its code and its jump tables. Its symbol says where the code lies, and
the labels follow. -/
theorem lays_funcChunk {f : Func} (hfaults : f.faults = []) (h : funcChunk p loc f = .ok c) :
    c.Lays p.textFill loc (f.codePiece loc :: f.tablePieces loc) ∧
      c.extents = f.symbolExtents loc := by
  obtain ⟨fill, start, body, tables, rfl, hstart, hlow, hlength, hbody, htables, rfl⟩ :=
    funcChunk_eq_ok h
  obtain ⟨hcode, halign, hlabels⟩ := body_of_concat hbody
  rw [add_length_padding] at hstart
  subst hstart
  -- the code with the fill bytes before it, and then the tables from its end on
  generalize hopening : (Chunk.append
    { bytes := padding f.align.toInt.toNat loc p.textFill, align := max 1 f.align.toInt.toNat }
    { symbols := [f.textSymbol p (alignUp f.align.toInt.toNat loc) body.bytes.length] }).append
      body = opening
  obtain ⟨hlays, hend, hextents⟩ := Chunk.lays_entity (q := f.codePiece loc) rfl
    (Func.exists_power_align hfaults) hcode halign hopening.symm
  have hstop : alignUp f.align.toInt.toNat loc + body.bytes.length = (f.codePiece loc).stop := by
    rw [hcode]
    rfl
  rw [hstop] at htables
  have hlabels : body.symbols.map Symbol.extent = f.labelExtents loc := hlabels
  obtain ⟨htablesLaid, htablesExtents⟩ := lays_tables hlabels htables
  constructor
  · rw [← hend] at htablesLaid
    have hunwind : Chunk.Lays p.textFill (loc + (opening.append tables).bytes.length) []
        { unwind := f.unwindRecords } := .nil _ rfl rfl
    have hall := (hlays.append htablesLaid).append hunwind
    rw [List.append_nil, hend] at hall
    exact hall
  · have hsymbol : (f.textSymbol p (alignUp f.align.toInt.toNat loc) body.bytes.length).extent =
        (f.codePiece loc).extent .func :=
      Piece.extent_eq rfl rfl rfl (congrArg List.length hcode) hlow hlength
    rw [Chunk.extents_append, Chunk.extents_append, hextents, hsymbol, htablesExtents,
      Func.symbolExtents, Func.tableExtents, Func.tablePieces, List.map_map, List.cons_append, List.cons_append,
      List.append_assoc]
    simp only [Chunk.extents, hlabels, List.map_nil, List.append_nil]
    rfl

end Functions

/-! ## Data objects -/

/-- The width of the field of a relocation. -/
def RelocKind.width : RelocKind → Nat
  | pcRel32 | abs32 => 4
  | abs64 => 8
  | other _ => 0

/-- A symbol needs four bytes at least, so the two kinds of relocation cover the widths of its value. -/
theorem Datum.width_of_symbol {v : Datum}
    (hsize : v.size = 1 ∨ v.size = 2 ∨ v.size = 4 ∨ v.size = 8) (hroom : 4 ≤ v.size) :
    RelocKind.width (if v.size = 8 then .abs64 else .abs32) = v.size.toInt.toNat := by
  rcases hsize with hsize | hsize | hsize | hsize
  · rw [hsize] at hroom
    exact absurd hroom (by decide)
  · rw [hsize] at hroom
    exact absurd hroom (by decide)
  · rw [hsize]
    rfl
  · rw [hsize]
    rfl

section Data

variable {p : Profile} {loc : Nat} {c : Chunk}

/-- The bytes of an integer are the lowest of it. -/
theorem integerBytes?_eq_some {size int : Int64} {bytes : List UInt8}
    (h : integerBytes? size int = some bytes) :
    bytes = littleEndian size.toInt.toNat int.toUInt64.toNat := by
  unfold integerBytes? at h
  dsimp only at h
  repeat' split at h
  all_goals first
    | (subst size; exact (Option.some.inj h).symm)
    | cases h

/-- An assembled value has the bytes of the value and asks for no alignment. -/
theorem image_of_valueChunk {v : Datum} {i : Nat} (h : valueChunk loc (v, i) = .ok c) :
    c.bytes = v.image ∧ c.align = 1 := by
  rcases valueChunk_eq_ok h with ⟨hsym, bytes, hbytes, rfl⟩ | ⟨hsym, -, rfl⟩
  · rw [Datum.image, if_pos hsym]
    exact ⟨integerBytes?_eq_some hbytes, rfl⟩
  · rw [Datum.image, if_neg hsym]
    exact ⟨rfl, rfl⟩

/-- An assembled data object is its values, and its symbol says where they lie. -/
theorem lays_dataChunk {d : DataObject} (hfaults : d.faults = []) (h : dataChunk p loc d = .ok c) :
    c.Lays 0 loc [d.piece loc] ∧ loc + c.bytes.length = d.next loc ∧
      c.extents = [(d.piece loc).extent .data] := by
  obtain ⟨fill, start, body, rfl, hstart, hlow, hlength, hbody, hc⟩ := dataChunk_eq_ok h
  obtain ⟨himage, halign⟩ := Chunk.bytes_of_numbered (fun _ _ _ _ => image_of_valueChunk) hbody
  rw [add_length_padding] at hstart
  subst hstart
  obtain ⟨hlays, hend, hextents⟩ := Chunk.lays_entity (q := d.piece loc) rfl
    (DataObject.exists_power_align hfaults) himage halign hc
  have hsymbol : (d.dataSymbol p (alignUp d.align.toInt.toNat loc) body.bytes.length).extent =
      (d.piece loc).extent .data :=
    Piece.extent_eq rfl rfl rfl (congrArg List.length himage) hlow hlength
  rw [hextents, hsymbol, Chunk.extents, symbols_of_values hbody]
  exact ⟨hlays, hend, rfl⟩

end Data

/-! ## Objects -/

/-- The symbols of the functions of a unit. -/
def CodeUnit.funcExtents (u : CodeUnit) : List Extent :=
  u.placedFuncs.flatMap fun (loc, f) => f.symbolExtents loc

theorem Func.kind_of_label {f : Func} {loc : Nat} :
    ∀ e ∈ f.labelExtents loc ++ f.tableExtents loc, e.kind = .label := by
  refine List.forall_mem_append.mpr ⟨?_, ?_⟩
  · intro e he
    obtain ⟨⟨place, inst⟩, -, he⟩ := List.mem_flatMap.mp he
    obtain ⟨label, -, rfl⟩ := List.mem_map.mp he
    rfl
  · intro e he
    obtain ⟨q, -, rfl⟩ := List.mem_map.mp he
    rfl

theorem Extent.filter_kind_eq_self {es : List Extent} {kind : SymbolKind}
    (h : ∀ e ∈ es, e.kind = kind) : (es.filter fun e => e.kind = kind) = es := by
  rw [List.filter_eq_self]
  exact fun e he => decide_eq_true (h e he)

theorem Extent.filter_kind_eq_nil {es : List Extent} {kind kind' : SymbolKind}
    (h : ∀ e ∈ es, e.kind = kind) (hne : kind ≠ kind') :
    (es.filter fun e => e.kind = kind') = [] := by
  rw [List.filter_eq_nil_iff]
  intro e he
  rw [h e he, decide_eq_true_eq]
  exact hne

/-- Of the symbols of functions, those of one kind are the functions' own, or the labels, or none. -/
theorem CodeUnit.filter_funcExtents (u : CodeUnit) :
    (u.funcExtents.filter fun e => e.kind = .func) = u.funcPieces.map (Piece.extent .func) ∧
      (u.funcExtents.filter fun e => e.kind = .label) = u.labelExtents ∧
      (u.funcExtents.filter fun e => e.kind = .data) = [] := by
  have hother : ∀ (loc : Nat) (f : Func) (kind : SymbolKind), .label ≠ kind →
      ((f.labelExtents loc ++ f.tableExtents loc).filter fun e => e.kind = kind) = [] :=
    fun _ _ _ => Extent.filter_kind_eq_nil Func.kind_of_label
  have hlabel : ∀ (loc : Nat) (f : Func),
      ((f.labelExtents loc ++ f.tableExtents loc).filter fun e => e.kind = .label) =
        f.labelExtents loc ++ f.tableExtents loc :=
    fun _ _ => Extent.filter_kind_eq_self Func.kind_of_label
  simp only [funcExtents, List.filter_flatMap, Func.symbolExtents, List.filter_cons, Piece.extent]
  refine ⟨?_, ?_, ?_⟩
  · rw [funcPieces, List.map_map, List.map_eq_flatMap]
    simp [hother, Piece.extent]
  · simp [hlabel, labelExtents]
  · simp [hother]

/-- The code of the functions is among what the section of functions holds. -/
theorem CodeUnit.funcPieces_sublist (u : CodeUnit) : u.funcPieces.Sublist u.textPieces := by
  rw [funcPieces, textPieces, List.map_eq_flatMap]
  induction u.placedFuncs with
  | nil => exact .slnil
  | cons placed rest ih =>
    rw [List.flatMap_cons, List.flatMap_cons]
    exact (List.singleton_sublist.mpr List.mem_cons_self).append ih

namespace Object

variable {p : Profile} {u : CodeUnit} {obj : Object}

section Sections

variable (hp : p.IsUsual) (hverify : verify (some u) = .ok ())

include hp hverify

/-- The section of functions holds their code and their jump tables. -/
theorem holds_textSection (h : assemble p u = .ok obj) (hfuncs : u.funcs ≠ []) :
    ∃ text, obj.section? p.textSection = some text ∧ text.Holds 0x90 u.textPieces := by
  obtain ⟨text, htext, hsection⟩ := section?_textSection h hfuncs
  have hlays := Chunk.lays_of_concat (fun _ _ hf _ hpiece =>
    ⟨(lays_funcChunk (func_faults_of_verify hverify hf) hpiece).1, end_of_funcChunk hpiece⟩) htext
  rw [hp.textFill] at hlays
  exact ⟨_, hsection, hlays.holds _⟩

/-- The section of data holds the values of the data objects. -/
theorem holds_dataSection (h : assemble p u = .ok obj) (hdata : u.data ≠ []) :
    ∃ data, obj.section? p.dataSection = some data ∧ data.Holds 0 u.dataPieces := by
  have hne := hp.textSection_ne_dataSection
  obtain ⟨data, hconcat, hsection⟩ := section?_dataSection h hne hdata
  have hlays := Chunk.lays_of_concat (fun _ _ hd _ hpiece =>
    have hpieces := lays_dataChunk (data_faults_of_verify hverify hd) hpiece
    ⟨hpieces.1, hpieces.2.1⟩) hconcat
  rw [CodeUnit.dataPieces, List.map_eq_flatMap]
  exact ⟨_, hsection, hlays.holds p.dataSection⟩

end Sections

/-- Every instruction of an assembled unit has machine code. -/
theorem decodeEncoding_eq_code (h : assemble p u = .ok obj) {place : Nat} {inst : Inst}
    (hplaced : (place, inst) ∈ u.placedInsts) :
    decodeEncoding inst.encoding = .ok inst.code := by
  obtain ⟨text, bytes, i, -, hbytes, -⟩ := section?_of_placed h hplaced
  simp only [Inst.code, hbytes]

/-- The symbols of an assembled object are those of its functions and of its data objects, where
these lie, and then those that are only referred to. -/
theorem extents_of_assemble (hverify : verify (some u) = .ok ()) (h : assemble p u = .ok obj) :
    ∃ refs, obj.symbols.map Symbol.extent =
        u.funcExtents ++ u.dataPieces.map (Piece.extent .data) ++ refs ∧
      ∀ e ∈ refs, e.kind = .untyped := by
  obtain ⟨text, data, htext, hdata, rfl⟩ := assemble_eq_ok h
  have htextExtents : text.extents = u.funcExtents :=
    Chunk.view_of_concat Chunk.extents rfl Chunk.extents_append (fun _ _ hf _ hpiece =>
      ⟨(lays_funcChunk (func_faults_of_verify hverify hf) hpiece).2, end_of_funcChunk hpiece⟩) htext
  have hdataExtents := Chunk.view_of_concat Chunk.extents rfl Chunk.extents_append
    (fun _ _ hd _ hpiece =>
      have hpieces := lays_dataChunk (data_faults_of_verify hverify hd) hpiece
      ⟨hpieces.2.2, hpieces.2.1⟩) hdata
  have hdataExtents : data.extents = u.dataPieces.map (Piece.extent .data) := by
    rw [hdataExtents, CodeUnit.dataPieces, List.map_map, List.map_eq_flatMap]
    rfl
  refine ⟨(undefinedSymbols (text.symbols ++ data.symbols) (references text data)).map
    Symbol.extent, ?_, ?_⟩
  · rw [List.map_append, List.map_append, ← htextExtents, ← hdataExtents]
    rfl
  · intro e he
    obtain ⟨s, hs, rfl⟩ := List.mem_map.mp he
    exact (isReference_of_mem_undefinedSymbols s hs).2.1

/-- The symbols of one kind in an assembled object. -/
theorem filter_kind_of_assemble (hverify : verify (some u) = .ok ()) (h : assemble p u = .ok obj) :
    (obj.symbols.filter fun s => s.kind = .func).map Symbol.extent =
        u.funcPieces.map (Piece.extent .func) ∧
      (obj.symbols.filter fun s => s.kind = .label).map Symbol.extent = u.labelExtents ∧
      (obj.symbols.filter fun s => s.kind = .data).map Symbol.extent =
        u.dataPieces.map (Piece.extent .data) := by
  obtain ⟨refs, hextents, hrefs⟩ := extents_of_assemble hverify h
  obtain ⟨hfunc, hlabel, hdata⟩ := u.filter_funcExtents
  have hdataKind : ∀ e ∈ u.dataPieces.map (Piece.extent .data), e.kind = .data := by
    intro e he
    obtain ⟨q, -, rfl⟩ := List.mem_map.mp he
    rfl
  -- an extent keeps the kind of its symbol, so the filter can be applied to extents
  have hfilter : ∀ kind : SymbolKind, .untyped ≠ kind →
      (obj.symbols.filter fun s => s.kind = kind).map Symbol.extent =
        (u.funcExtents.filter fun e => e.kind = kind) ++
          (u.dataPieces.map (Piece.extent .data)).filter fun e => e.kind = kind := by
    intro kind hkind
    have hmap : (obj.symbols.filter fun s => s.kind = kind).map Symbol.extent =
        (obj.symbols.map Symbol.extent).filter fun e => e.kind = kind := by
      rw [List.filter_map]
      rfl
    rw [hmap, hextents, List.filter_append, List.filter_append,
      Extent.filter_kind_eq_nil hrefs hkind, List.append_nil]
  refine ⟨?_, ?_, ?_⟩
  · rw [hfilter .func (by decide), hfunc, Extent.filter_kind_eq_nil hdataKind (by decide),
      List.append_nil]
  · rw [hfilter .label (by decide), hlabel, Extent.filter_kind_eq_nil hdataKind (by decide),
      List.append_nil]
  · rw [hfilter .data (by decide), hdata, Extent.filter_kind_eq_self hdataKind, List.nil_append]

/-- An object is laid out as its unit says: the two sections hold the functions and the data objects,
and the symbols say exactly where. -/
structure LaidOut (p : Profile) (u : CodeUnit) (obj : Object) : Prop where
  /-- The section of functions holds their code and jump tables, with no-operations between them. -/
  text : u.funcs ≠ [] →
    ∃ text, obj.section? p.textSection = some text ∧ text.Holds 0x90 u.textPieces
  /-- The code of the functions is among that, in order. -/
  funcs : u.funcPieces.Sublist u.textPieces
  /-- The machine code of every instruction was read. -/
  code : ∀ place inst, (place, inst) ∈ u.placedInsts →
    decodeEncoding inst.encoding = .ok inst.code
  /-- The section of data holds the values of the data objects, with zeros between them. -/
  data : u.data ≠ [] →
    ∃ data, obj.section? p.dataSection = some data ∧ data.Holds 0 u.dataPieces
  /-- The symbols of functions say where their code lies. -/
  funcSymbols : (obj.symbols.filter fun s => s.kind = .func).map Symbol.extent =
    u.funcPieces.map (Piece.extent .func)
  /-- The symbols of labels say where the instruction, or the jump table, with the label starts. -/
  labelSymbols : (obj.symbols.filter fun s => s.kind = .label).map Symbol.extent = u.labelExtents
  /-- The symbols of data objects say where their values lie. -/
  dataSymbols : (obj.symbols.filter fun s => s.kind = .data).map Symbol.extent =
    u.dataPieces.map (Piece.extent .data)
  /-- Functions and labels lie in the section of functions, and data objects in that of data. -/
  sections : ∀ s ∈ obj.symbols, ((s.kind = .func ∨ s.kind = .label) → s.section_ = p.textSection) ∧
    (s.kind = .data → s.section_ = p.dataSection)

/-- The object of a unit that passes the checks is laid out as the unit says, on every platform. -/
theorem laidOut_of_assemble {b : Bucket} {c : Conventions} (hp : Profile.ofBucket b c = .ok p)
    (hverify : verify (some u) = .ok ()) (h : assemble p u = .ok obj) : obj.LaidOut p u := by
  have husual := Profile.isUsual_of_ofBucket hp
  obtain ⟨hfuncs, hlabels, hdata⟩ := filter_kind_of_assemble hverify h
  constructor
  case text => exact holds_textSection husual hverify h
  case funcs => exact u.funcPieces_sublist
  case code => exact fun _ _ => decodeEncoding_eq_code h
  case data => exact holds_dataSection husual hverify h
  case funcSymbols => exact hfuncs
  case labelSymbols => exact hlabels
  case dataSymbols => exact hdata
  case sections =>
    intro s hs
    rcases symbols_of_assemble h hs with ⟨hsection, ⟨hkind, -⟩ | ⟨hkind, -⟩⟩ |
      ⟨hsection, hkind, -⟩ | ⟨hsection, hkind, -⟩ <;> simp [hsection, hkind]

/-- A function of one byte, a function with a jump table after it, and two data objects. -/
def switching : CodeUnit :=
  { name := "switching"
    funcs := [{ name := "first", linkage := .global, align := 4
                insts := [{ op := "ret", encoding := "c3" }] },
      { name := "second", linkage := .internal, align := 16
        insts := [{ op := "nop", encoding := "90", label := "start" },
          { op := "ret", encoding := "c3", label := "done" }]
        jumpTables := [{ label := "table", targets := ["done", "start"] }] }]
    data := [{ name := "flag", linkage := .global, align := 1, values := [{ size := 1, int := -1 }] },
      { name := "handler", linkage := .hidden, align := 8
        values := [{ size := 8, sym := "second", int := 4 }] }] }

/-- The second function starts at the next multiple of sixteen, and its jump table at the next
multiple of four after its two bytes. The handler is a pointer after seven zeros. -/
theorem laidOut_switching :
    ∃ obj text data, Profile.ofBucket Triple.host.bucket {} = .ok Profile.host ∧
      verify (some switching) = .ok () ∧ assemble Profile.host switching = .ok obj ∧
      obj.section? ".text" = some text ∧ obj.section? ".data" = some data ∧
      text.Holds 0x90 [⟨"first", 0, 4, [0xc3]⟩, ⟨"second", 16, 16, [0x90, 0xc3]⟩,
        ⟨"table", 20, 4, [0xfd, 0xff, 0xff, 0xff, 0xfc, 0xff, 0xff, 0xff]⟩] ∧
      data.Holds 0 [⟨"flag", 0, 1, [0xff]⟩, ⟨"handler", 8, 8, [0, 0, 0, 0, 0, 0, 0, 0]⟩] ∧
      (obj.symbols.filter fun s => s.kind = .label).map Symbol.extent =
        [⟨"start", .label, 16, 0⟩, ⟨"done", .label, 17, 0⟩, ⟨"table", .label, 20, 0⟩] := by
  have hok : (assemble Profile.host switching).toOption.isSome = true := by decide +kernel
  have hverify : verify (some switching) = .ok () := by decide +kernel
  have htext : switching.textPieces = [⟨"first", 0, 4, [0xc3]⟩, ⟨"second", 16, 16, [0x90, 0xc3]⟩,
      ⟨"table", 20, 4, [0xfd, 0xff, 0xff, 0xff, 0xfc, 0xff, 0xff, 0xff]⟩] := by decide +kernel
  have hdata : switching.dataPieces =
      [⟨"flag", 0, 1, [0xff]⟩, ⟨"handler", 8, 8, [0, 0, 0, 0, 0, 0, 0, 0]⟩] := by decide +kernel
  have hlabels : switching.labelExtents = [⟨"start", .label, 16, 0⟩, ⟨"done", .label, 17, 0⟩,
      ⟨"table", .label, 20, 0⟩] := by decide +kernel
  cases hobj : assemble Profile.host switching with
  | error e =>
    rw [hobj] at hok
    cases hok
  | ok obj =>
    have hlaid := laidOut_of_assemble Profile.ofTriple_host hverify hobj
    obtain ⟨text, htextSection, htextHolds⟩ := hlaid.text (by decide)
    obtain ⟨data, hdataSection, hdataHolds⟩ := hlaid.data (by decide)
    rw [htext] at htextHolds
    rw [hdata] at hdataHolds
    exact ⟨obj, text, data, Profile.ofTriple_host, hverify, rfl, htextSection, hdataSection,
      htextHolds, hdataHolds, hlaid.labelSymbols.trans hlabels⟩

end Object

end CodeEmission
