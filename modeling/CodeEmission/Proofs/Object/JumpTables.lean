import CodeEmission.Proofs.Object.Capacity
import Mathlib.Data.List.Nodup

/-!
# Jump Tables Point at Their Labels

A jump table follows the body of its function and holds one signed word for each target: the distance
of the target from the table. This module reads the words back from the assembled section and
compares them with the places of instructions.

* `exists_entry_of_tableEntries`: the word of one target among the entries of a table, by the
  recursion over the targets.
* `Extent.placeOf_of_mem`: where labels are unique, a label is found at the place that carries it.
* `exists_table_of_funcChunk`: a table in the chunk of its function, with its entries and its label.
* `Object.jump_table_entries`: in every object the `k`-th word of a table is the distance of the
  instruction with the `k`-th target, and a table with an unknown target has no object.
-/

namespace CodeEmission

/-! ## Signed words -/

/-- The number that bytes stand for, the lowest first. -/
def ofLittleEndian : List UInt8 → Nat
  | [] => 0
  | b :: rest => b.toNat + 256 * ofLittleEndian rest

/-- Reading gives back the part of a number that was written. -/
theorem ofLittleEndian_littleEndian (width n : Nat) :
    ofLittleEndian (littleEndian width n) = n % 256 ^ width := by
  induction width generalizing n with
  | zero => rw [Nat.pow_zero, Nat.mod_one, littleEndian, ofLittleEndian]
  | succ width ih =>
    have hlow : (UInt8.ofNat (n % 256)).toNat = n % 256 :=
      UInt8.toNat_ofNat_of_lt' (Nat.mod_lt n (by decide))
    rw [littleEndian, ofLittleEndian, hlow, ih, Nat.pow_succ', Nat.mod_mul]

/-- The signed word of four bytes at a place of a section, if they are there. -/
def Section.signedWord? (s : Section) (place : Nat) : Option Int :=
  let word := (s.data.drop place).take 4
  if word.length = 4 then some (BitVec.ofNat 32 (ofLittleEndian word)).toInt else none

/-- A distance that fits a signed word is read back from its two's complement. -/
theorem Section.signedWord?_eq_some {s : Section} (before after : List UInt8) {rel : Int}
    (hrel : Int32.minValue.toInt ≤ rel ∧ rel ≤ Int32.maxValue.toInt)
    (hdata : s.data = before ++ (littleEndian 4 (rel % UInt32.size).toNat ++ after)) :
    s.signedWord? before.length = some rel := by
  have hword : (s.data.drop before.length).take 4 = littleEndian 4 (rel % UInt32.size).toNat := by
    rw [hdata, List.drop_left, List.take_left' (length_littleEndian 4 _)]
  have hmin : Int32.minValue.toInt = -2147483648 := rfl
  have hmax : Int32.maxValue.toInt = 2147483647 := rfl
  have hsize : ((UInt32.size : Nat) : Int) = 4294967296 := rfl
  simp only [signedWord?, hword, length_littleEndian, if_true, ofLittleEndian_littleEndian,
    Option.some.injEq]
  -- the remainder differs from the distance by a whole number of words
  rw [BitVec.toInt_ofNat', hsize, Int.bmod_def]
  omega

/-! ## Entries and labels -/

/-- Among the entries of a table the word of a target stands behind those of the targets before it.
It is the distance of a label of the body, and it fits. -/
theorem exists_entry_of_tableEntries {body : List Symbol} {base : Nat} {targets : List String}
    {bytes : List UInt8} (h : tableEntries body base targets = .ok bytes) {k : Nat}
    {target : String} (hk : targets[k]? = some target) :
    ∃ offset before after, labelOffset? body target = some offset ∧
      (Int32.minValue.toInt ≤ (offset : Int) - base ∧
        (offset : Int) - base ≤ Int32.maxValue.toInt) ∧
      before.length = 4 * k ∧
      bytes = before ++ (littleEndian 4 (((offset : Int) - base) % UInt32.size).toNat ++ after) := by
  induction targets generalizing bytes k with
  | nil => simp at hk
  | cons first rest ih =>
    obtain ⟨offset, later, hoffset, hfits, hlater, rfl⟩ := tableEntries_cons_eq_ok h
    match k with
    | 0 =>
      obtain rfl : first = target := by simpa using hk
      exact ⟨offset, [], later, hoffset, hfits, rfl, rfl⟩
    | k + 1 =>
      obtain ⟨offset', before, after, hoffset', hfits', hlength, rfl⟩ := ih hlater hk
      refine ⟨offset', _ ++ before, after, hoffset', hfits', ?_, (List.append_assoc _ _ _).symm⟩
      rw [List.length_append, length_littleEndian, hlength]
      omega

/-- A label that has an offset is the name of a symbol. -/
theorem mem_of_labelOffset?_eq_some {symbols : List Symbol} {label : String} {offset : Nat}
    (h : labelOffset? symbols label = some offset) : label ∈ symbols.map Symbol.name := by
  obtain ⟨s, hs, -⟩ := Option.map_eq_some_iff.mp h
  have hname : s.name = label := by simpa using List.find?_some hs
  rw [← hname]
  exact List.mem_map_of_mem (List.mem_reverse.mp (List.mem_of_find?_eq_some hs))

/-- Where names are unique, a name is found where the extent with that name starts. -/
theorem Extent.placeOf_of_mem {es : List Extent} (hnodup : (es.map Extent.name).Nodup) {e : Extent}
    (he : e ∈ es) : Extent.placeOf es e.name = e.start := by
  -- the search goes from the end, but there is only one to be found
  have hfind : (es.reverse.find? fun x => x.name = e.name) = some e := by
    obtain ⟨found, hfound⟩ := Option.isSome_iff_exists.mp
      (List.find?_isSome.mpr ⟨e, List.mem_reverse.mpr he, decide_eq_true rfl⟩ :
        (es.reverse.find? fun x => x.name = e.name).isSome)
    have hmem : found ∈ es := List.mem_reverse.mp (List.mem_of_find?_eq_some hfound)
    have hname : found.name = e.name := by simpa using List.find?_some hfound
    rw [hfound, List.inj_on_of_nodup_map hnodup hmem he hname]
  rw [placeOf, hfind]
  rfl

/-- The extents of a function's labels have the names of the labels. -/
theorem Func.map_name_labelExtents (f : Func) (loc : Nat) :
    (f.labelExtents loc).map Extent.name = f.labels := by
  have hnames : ∀ (place : Nat) (inst : Inst),
      (inst.labelExtents place).map Extent.name = inst.labels := by
    intro place inst
    rw [Inst.labelExtents, List.map_map]
    exact List.map_id _
  rw [labelExtents, List.map_flatMap, labels_eq_flatMap]
  simp only [hnames]
  rw [← List.flatMap_map, map_snd_placedFrom]

/-- The instructions of a function that comes after an offset, each where it starts. -/
def Func.placedInsts (loc : Nat) (f : Func) : List (Nat × Inst) :=
  placedFrom Inst.next (f.start loc) f.insts

/-- Where the labels of a function are unique, a label is found where its instruction starts. -/
theorem Func.placeOf_label {f : Func} (hunique : f.labels.Nodup) {loc place : Nat} {inst : Inst}
    (hplaced : (place, inst) ∈ f.placedInsts loc) (hlabel : inst.label ∈ f.labels) :
    Extent.placeOf (f.labelExtents loc) inst.label = place := by
  have hne : inst.label ≠ "" := by simpa using (List.mem_filter.mp hlabel).2
  have hextent : Extent.label inst.label place ∈ f.labelExtents loc := by
    refine List.mem_flatMap.mpr ⟨(place, inst), hplaced, ?_⟩
    simp [Inst.labelExtents, Inst.labels, hne]
  rw [← f.map_name_labelExtents loc] at hunique
  exact Extent.placeOf_of_mem hunique hextent

/-! ## Tables in place -/

/-- The jump tables of a function that comes after an offset, each where it starts: at the next
multiple of four after the code, or after the table before it. -/
def Func.placedTables (loc : Nat) (f : Func) : List (Nat × JumpTable) :=
  (placedFrom JumpTable.next (f.codePiece loc).stop f.jumpTables).map fun (place, t) =>
    (alignUp 4 place, t)

/-- Every jump table has a place. -/
theorem Func.map_snd_placedTables (f : Func) (loc : Nat) :
    (f.placedTables loc).map Prod.snd = f.jumpTables := by
  rw [placedTables, List.map_map]
  exact map_snd_placedFrom f.jumpTables

section Tables

variable {p : Profile} {loc base : Nat} {c : Chunk} {f : Func} {t : JumpTable}

/-- In the chunk of a function a jump table has its entries at its place, computed from the labels of
the body, and a label there. -/
theorem exists_table_of_funcChunk (h : funcChunk p loc f = .ok c)
    (ht : (base, t) ∈ f.placedTables loc) :
    ∃ body entries before after,
      Chunk.concat (instChunk p) (f.start loc) f.insts.zipIdx = .ok body ∧
      tableEntries body.symbols base t.targets = .ok entries ∧
      c.bytes = before ++ (entries ++ after) ∧ loc + before.length = base ∧
      ∃ s ∈ c.symbols, s.IsLabel p ∧ s.extent = .label t.label base := by
  obtain ⟨⟨place, t⟩, hplaced, hbase⟩ := List.mem_map.mp ht
  obtain ⟨rfl, rfl⟩ := Prod.mk.inj hbase
  obtain ⟨fill, start, body, tables, rfl, hstart, -, -, hbody, htables, hc⟩ := funcChunk_eq_ok h
  obtain ⟨hcode, -, -⟩ := body_of_concat hbody
  have hplace : start = f.start loc := by
    rw [hstart]
    exact add_length_padding _ _ _
  -- the tables start where the code stops
  have hstop : start + body.bytes.length = (f.codePiece loc).stop := by
    rw [hplace, hcode]
    rfl
  rw [← hstop] at hplaced
  obtain ⟨early, piece, late, hpiece, htables, hearly⟩ :=
    Chunk.exists_piece_of_placed (fun _ _ _ => end_of_tableChunk) htables hplaced
  obtain ⟨s, hs, hextent⟩ : ∃ s ∈ piece.symbols, s.extent = .label t.label (alignUp 4 place) := by
    have hextents : piece.extents = [.label t.label (alignUp 4 place)] := (lays_tableChunk hpiece).2
    apply List.mem_map.mp
    show _ ∈ piece.extents
    rw [hextents]
    exact List.mem_singleton_self _
  have hlabel := isLabel_of_tableChunk hpiece s hs
  obtain ⟨entries, hentries, hpieceBytes⟩ := tableChunk_eq_ok hpiece
  rw [add_length_padding] at hentries
  rw [hplace] at hbody
  refine ⟨body, entries, padding f.align.toInt.toNat loc p.textFill ++ body.bytes ++ early.bytes ++
    padding 4 place p.textFill, late.bytes, hbody, hentries, ?_, ?_, s, ?_, hlabel, hextent⟩
  · simp [hc, htables, hpieceBytes]
  · rw [← add_length_padding 4 place p.textFill]
    simp only [List.length_append]
    omega
  · simp [hc, htables, hs]

/-- The targets of an assembled jump table are labels of instructions of its function. -/
theorem mem_labels_of_funcChunk (h : funcChunk p loc f = .ok c) (ht : t ∈ f.jumpTables)
    {target : String} (htarget : target ∈ t.targets) : target ∈ f.labels := by
  rw [← f.map_snd_placedTables loc] at ht
  obtain ⟨⟨base, _⟩, hplaced, rfl⟩ := List.mem_map.mp ht
  obtain ⟨body, entries, -, -, hbody, hentries, -⟩ := exists_table_of_funcChunk h hplaced
  obtain ⟨k, hk⟩ := List.mem_iff_getElem?.mp htarget
  obtain ⟨offset, -, -, hoffset, -⟩ := exists_entry_of_tableEntries hentries hk
  have hnames : body.symbols.map Symbol.name = f.labels := names_of_body hbody
  rw [← hnames]
  exact mem_of_labelOffset?_eq_some hoffset

/-- The word of a target in the chunk of a function is the distance of its instruction from the
table. -/
theorem exists_word_of_funcChunk (hunique : f.labels.Nodup) (h : funcChunk p loc f = .ok c)
    (ht : (base, t) ∈ f.placedTables loc) {k place : Nat} {inst : Inst}
    (hplaced : (place, inst) ∈ f.placedInsts loc) (hk : t.targets[k]? = some inst.label) :
    (Int32.minValue.toInt ≤ (place : Int) - base ∧ (place : Int) - base ≤ Int32.maxValue.toInt) ∧
      ∃ before after, loc + before.length = base + 4 * k ∧ c.bytes =
        before ++ (littleEndian 4 (((place : Int) - base) % UInt32.size).toNat ++ after) := by
  obtain ⟨body, entries, before, after, hbody, hentries, hbytes, hbase, -⟩ :=
    exists_table_of_funcChunk h ht
  obtain ⟨offset, early, late, hoffset, hfits, hlength, rfl⟩ :=
    exists_entry_of_tableEntries hentries hk
  have hlabel : inst.label ∈ f.labels := by
    have hnames : body.symbols.map Symbol.name = f.labels := names_of_body hbody
    rw [← hnames]
    exact mem_of_labelOffset?_eq_some hoffset
  -- the offset that was looked up is the place of the instruction
  have hextents : body.symbols.map Symbol.extent = f.labelExtents loc :=
    (body_of_concat hbody).2.2
  have hplace : place = offset := by
    rw [← Func.placeOf_label hunique hplaced hlabel, ← hextents]
    exact labelOffset?_eq_some hoffset
  subst hplace
  refine ⟨hfits, before ++ early, late ++ after, ?_, ?_⟩
  · rw [List.length_append, hlength]
    omega
  · rw [hbytes]
    simp only [List.append_assoc]

end Tables

/-! ## Objects -/

/-- A jump table of a function that comes after `loc` stands in an object at `base`. -/
structure Object.HasTable (p : Profile) (obj : Object) (loc : Nat) (f : Func) (base : Nat)
    (t : JumpTable) : Prop where
  /-- The table starts at a multiple of four. -/
  aligned : 4 ∣ base
  /-- Its label stands there. -/
  symbol : ∃ s ∈ obj.symbols, s.section_ = p.textSection ∧ s.kind = .label ∧ s.name = t.label ∧
    s.offset.toNat = base
  /-- Its targets are labels of instructions of the function. -/
  targets : ∀ target ∈ t.targets, target ∈ f.labels
  /-- The word of a target is the distance of the instruction with that label from the table. -/
  entries : ∃ text, obj.section? p.textSection = some text ∧
    ∀ k place inst, (place, inst) ∈ f.placedInsts loc → t.targets[k]? = some inst.label →
      (text.data.drop place).take inst.code.length = inst.code ∧
        text.signedWord? (base + 4 * k) = some ((place : Int) - base)

/-- A jump table of an assembled unit stands in the object at its place. -/
theorem Object.hasTable_of_assemble {p : Profile} {u : CodeUnit} {obj : Object}
    (h : assemble p u = .ok obj) {loc base : Nat} {f : Func} {t : JumpTable}
    (hunique : f.labels.Nodup) (hf : (loc, f) ∈ u.placedFuncs)
    (ht : (base, t) ∈ f.placedTables loc) : obj.HasTable p loc f base t := by
  have hmem : f ∈ u.funcs := mem_of_mem_placedFrom hf
  obtain ⟨text, htext, hsection⟩ := section?_textSection h (List.ne_nil_of_mem hmem)
  obtain ⟨before, chunk, after, hchunk, rfl, hloc⟩ :=
    Chunk.exists_piece_of_placed (fun _ _ _ => end_of_funcChunk) htext hf
  constructor
  case aligned =>
    obtain ⟨⟨place, _⟩, -, hbase⟩ := List.mem_map.mp ht
    rw [← (Prod.mk.inj hbase).1, ← add_length_padding 4 place 0]
    exact dvd_add_length_padding (by decide) place 0
  case symbol =>
    obtain ⟨-, -, -, -, -, -, -, -, s, hs, hlabel, hextent⟩ := exists_table_of_funcChunk hchunk ht
    have hname : s.name = t.label := congrArg Extent.name hextent
    have hoffset : s.offset.toNat = base := congrArg Extent.start hextent
    obtain ⟨text', data, htext', -, rfl⟩ := assemble_eq_ok h
    obtain rfl := Except.ok.inj (htext.symm.trans htext')
    refine ⟨s, ?_, hlabel.1, hlabel.2.1, hname, hoffset⟩
    simp [hs]
  case targets =>
    intro target htarget
    apply mem_labels_of_funcChunk hchunk ?_ htarget
    rw [← f.map_snd_placedTables loc]
    exact List.mem_map_of_mem (f := Prod.snd) ht
  case entries =>
    refine ⟨_, hsection, fun k place inst hplaced hk => ⟨?_, ?_⟩⟩
    · obtain ⟨text', bytes, -, hsection', hbytes, -, hcode, -⟩ :=
        Object.section?_of_placed h (List.mem_flatMap.mpr ⟨(loc, f), hf, hplaced⟩)
      obtain rfl := Option.some.inj (hsection.symm.trans hsection')
      simpa only [Inst.code, hbytes] using hcode
    · obtain ⟨hfits, early, late, hlength, hbytes⟩ :=
        exists_word_of_funcChunk hunique hchunk ht hplaced hk
      have hplace : (before.bytes ++ early).length = base + 4 * k := by
        rw [List.length_append]
        omega
      rw [← hplace]
      apply Section.signedWord?_eq_some _ (late ++ after.bytes) hfits
      simp [sectionOf, hbytes]

/-- Jump tables point at their labels. In the object of a unit whose functions have unique labels,
every jump table starts at a multiple of four, where its label stands, and its `k`-th signed word is
the place of the instruction with the `k`-th target, in the same function, minus the place of the
table. A unit with a table that lists anything else has no object. -/
theorem Object.jump_table_entries {p : Profile} {u : CodeUnit}
    (hunique : ∀ f ∈ u.funcs, f.labels.Nodup) :
    (∀ obj, assemble p u = .ok obj → ∀ loc f, (loc, f) ∈ u.placedFuncs →
        ∀ base t, (base, t) ∈ f.placedTables loc → obj.HasTable p loc f base t) ∧
      ((∃ f ∈ u.funcs, ∃ t ∈ f.jumpTables, ∃ target ∈ t.targets, target ∉ f.labels) →
        ∃ e, assemble p u = .error e) := by
  constructor
  · intro obj hobj loc f hf base t ht
    exact hasTable_of_assemble hobj (hunique f (mem_of_mem_placedFrom hf)) hf ht
  · rintro ⟨f, hf, t, ht, target, htarget, hunknown⟩
    match hobj : assemble p u with
    | .error e => exact ⟨e, rfl⟩
    | .ok obj =>
      -- an object would have the table, whose targets are all labels
      obtain ⟨text, -, htext, -, -⟩ := assemble_eq_ok hobj
      obtain ⟨loc, hplaced⟩ := exists_mem_placedFrom Func.next 0 hf
      obtain ⟨piece, hpiece⟩ :=
        Chunk.exists_of_concat (fun _ _ _ => end_of_funcChunk) htext hplaced
      exact absurd (mem_labels_of_funcChunk hpiece ht htarget) hunknown

/-- Two jump tables over two instructions, whose targets come in another order than they do. -/
def branching : Func :=
  { name := "second", linkage := .internal, align := 16
    insts := [{ label := "start", op := "nop", encoding := "90" },
      { label := "done", op := "ret", encoding := "c3" }]
    jumpTables := [⟨"rows", ["done", "start"]⟩, ⟨"columns", ["start"]⟩] }

/-- A function that shares a label with it and has one of its own. -/
def leading : Func :=
  { name := "first", linkage := .global
    insts := [{ label := "entry", op := "nop", encoding := "90" },
      { label := "done", op := "ret", encoding := "c3" }] }

/-- The two functions one after another. -/
def tabulated : CodeUnit :=
  { name := "tabulated", funcs := [leading, branching] }

/-- The code of the second function starts at 16 and its tables at 20 and 28. They list its own labels
at 16 and 17, and not the label of the first function at 1. A table of the second function that lists
a label of the first is refused. -/
theorem Object.jump_table_entries_tabulated :
    ∃ obj text, assemble Profile.host tabulated = .ok obj ∧ obj.section? ".text" = some text ∧
      text.signedWord? 20 = some (-3) ∧ text.signedWord? 24 = some (-4) ∧
      text.signedWord? 28 = some (-12) ∧
      (∃ s ∈ obj.symbols, s.name = "columns" ∧ s.offset.toNat = 28) ∧
      ∃ e, assemble Profile.host { name := "stray", funcs :=
        [leading, { branching with jumpTables := [⟨"rows", ["entry"]⟩] }] } = .error e := by
  have hunique : ∀ f ∈ tabulated.funcs, f.labels.Nodup := by decide +kernel
  have hok : (assemble Profile.host tabulated).toOption.isSome = true := by decide +kernel
  have hf : (2, branching) ∈ tabulated.placedFuncs := by decide +kernel
  have hstart : (16, branching.insts[0]) ∈ branching.placedInsts 2 := by decide +kernel
  have hdone : (17, branching.insts[1]) ∈ branching.placedInsts 2 := by decide +kernel
  match hobj : assemble Profile.host tabulated with
  | .error e =>
    rw [hobj] at hok
    cases hok
  | .ok obj =>
    have hrows := (jump_table_entries hunique).1 obj hobj 2 branching hf 20 ⟨"rows", ["done", "start"]⟩
      (by decide +kernel)
    have hcolumns := (jump_table_entries hunique).1 obj hobj 2 branching hf 28 ⟨"columns", ["start"]⟩
      (by decide +kernel)
    obtain ⟨text, hsection, hwords⟩ := hrows.entries
    obtain ⟨text', hsection', hwords'⟩ := hcolumns.entries
    obtain rfl := Option.some.inj (hsection.symm.trans hsection')
    obtain ⟨s, hs, -, -, hname, hoffset⟩ := hcolumns.symbol
    refine ⟨obj, text, rfl, hsection, (hwords 0 17 _ hdone rfl).2, (hwords 1 16 _ hstart rfl).2,
      (hwords' 0 16 _ hstart rfl).2, ⟨s, hs, hname, hoffset⟩, ?_⟩
    have hunique : ∀ f ∈ [leading, { branching with jumpTables := [⟨"rows", ["entry"]⟩] }],
        f.labels.Nodup := by decide +kernel
    exact (jump_table_entries hunique).2 ⟨_, List.mem_of_getElem? (i := 1) rfl, _,
      List.mem_singleton_self _, "entry", List.mem_singleton_self _, by decide +kernel⟩

end CodeEmission
