import CodeEmission.Object.Pack
import CodeEmission.Proofs.Object.Reader
import Mathlib.Algebra.Group.Nat.Defs

/-!
# What Is Written Is Read

Every value of the container is read off the bytes that it is written as, whatever follows them.

* `reads_number`, `reads_binary`, `reads_text`: numbers and runs of bytes, over all forms of a
  length.
* `reads_texts`, `reads_slots`: lists.
* `ReadsFields.reads_record`: records, whose fields are read one after another.
-/

namespace CodeEmission.Unpack

variable {α β : Type}

namespace Reads

theorem map {read : Reader α} {a : α} {bytes : List UInt8} (h : Reads read a bytes) (f : α → β) :
    Reads (fun bytes => (read bytes).map fun (a, rest) => (f a, rest)) (f a) bytes := by
  intro rest
  simp only [h rest, Option.map_some]

end Reads

/-! ## Numbers, lengths and texts -/

theorem reads_take (bytes : List UInt8) : Reads (take bytes.length) bytes bytes := by
  intro rest
  rw [take, List.take_left, List.drop_left, if_pos rfl]

/-- The bytes of a number spell what of it fits them. -/
theorem ofBigEndian_bigEndian (width n : Nat) :
    ofBigEndian (Pack.bigEndian width n) = n % 256 ^ width := by
  induction width generalizing n with
  | zero =>
    rw [Nat.pow_zero, Nat.mod_one]
    rfl
  | succ width ih =>
    -- the lowest byte is written last, so it is the one that the fold reaches last
    have hlast : ofBigEndian (Pack.bigEndian (width + 1) n) =
        ofBigEndian (Pack.bigEndian width (n / 256)) * 256 + (UInt8.ofNat (n % 256)).toNat := by
      rw [Pack.bigEndian, ofBigEndian, List.foldl_append]
      rfl
    have hbyte : (UInt8.ofNat (n % 256)).toNat = n % 256 :=
      UInt8.toNat_ofNat_of_lt' (Nat.mod_lt n (by decide))
    rw [hlast, ih, hbyte, Nat.pow_succ', Nat.mod_mul]
    omega

/-- A number that fits its bytes is read off them. -/
theorem reads_number {width n : Nat} (h : n < 256 ^ width) :
    Reads (number width) n (Pack.bigEndian width n) := by
  have hread := (reads_take (Pack.bigEndian width n)).map ofBigEndian
  rw [Pack.length_bigEndian, ofBigEndian_bigEndian, Nat.mod_eq_of_lt h] at hread
  exact hread

/-- A header is a code that is not nil, and the length is read after it. -/
def IsHeader (length : UInt8 → Reader Nat) (n : Nat) (bytes : List UInt8) : Prop :=
  ∃ code rest, bytes = code :: rest ∧ code ≠ 0xc0 ∧ Reads (length code) n rest

/-- A short length is read off the code, which lies in a range below nil. -/
theorem isHeader_short {length : UInt8 → Reader Nat} {base n : Nat} (first last : UInt8)
    (hlength : ∀ code rest, first ≤ code → code ≤ last →
      length code rest = some (code.toNat - base, rest))
    (hfirst : first.toNat = base) (hlast : base + n ≤ last.toNat) (hnil : last < 0xc0) :
    IsHeader length n [UInt8.ofNat (base + n)] := by
  have hcode : (UInt8.ofNat (base + n)).toNat = base + n :=
    UInt8.toNat_ofNat_of_lt' (Nat.lt_of_le_of_lt hlast last.toNat_lt_size)
  have hge : first ≤ UInt8.ofNat (base + n) := by
    rw [UInt8.le_iff_toNat_le, hcode]
    omega
  have hle : UInt8.ofNat (base + n) ≤ last := by
    rw [UInt8.le_iff_toNat_le, hcode]
    exact hlast
  refine ⟨_, [], rfl, ?_, ?_⟩
  -- the range ends before the code of nil
  · intro heq
    rw [heq] at hle
    exact absurd hnil (UInt8.not_lt.mpr hle)
  · intro rest
    rw [List.nil_append, hlength _ rest hge hle, hcode, Nat.add_sub_cancel_left]

section Headers

variable {n : Nat} (h : n < UInt32.size)

include h

theorem isHeader_text : IsHeader bytesLength n (Pack.textHeader n) := by
  unfold Pack.textHeader
  split
  next hshort =>
    refine isHeader_short 0xa0 0xbf ?_ rfl (show 0xa0 + n ≤ 0xbf by omega) (by decide)
    intro code rest hge hle
    rw [bytesLength, if_pos ⟨hge, hle⟩]
  next =>
    split
    next hlt => exact ⟨0xd9, _, rfl, by decide, reads_number hlt⟩
    next =>
      split
      next hlt => exact ⟨0xda, _, rfl, by decide, reads_number hlt⟩
      next => exact ⟨0xdb, _, rfl, by decide, reads_number h⟩

theorem isHeader_binary : IsHeader bytesLength n (Pack.binaryHeader n) := by
  unfold Pack.binaryHeader
  split
  next hlt => exact ⟨0xc4, _, rfl, by decide, reads_number hlt⟩
  next =>
    split
    next hlt => exact ⟨0xc5, _, rfl, by decide, reads_number hlt⟩
    next => exact ⟨0xc6, _, rfl, by decide, reads_number h⟩

theorem isHeader_array : IsHeader arrayLength n (Pack.arrayHeader n) := by
  unfold Pack.arrayHeader
  split
  next hshort =>
    refine isHeader_short 0x90 0x9f ?_ rfl (show 0x90 + n ≤ 0x9f by omega) (by decide)
    intro code rest hge hle
    rw [arrayLength, if_pos ⟨hge, hle⟩]
  next =>
    split
    next hlt => exact ⟨0xdc, _, rfl, by decide, reads_number hlt⟩
    next => exact ⟨0xdd, _, rfl, by decide, reads_number h⟩

theorem isHeader_map : IsHeader mapLength n (Pack.mapHeader n) := by
  unfold Pack.mapHeader
  split
  next hshort =>
    refine isHeader_short 0x80 0x8f ?_ rfl (show 0x80 + n ≤ 0x8f by omega) (by decide)
    intro code rest hge hle
    rw [mapLength, if_pos ⟨hge, hle⟩]
  next =>
    split
    next hlt => exact ⟨0xde, _, rfl, by decide, reads_number hlt⟩
    next => exact ⟨0xdf, _, rfl, by decide, reads_number h⟩

end Headers

/-- Bytes after their length are read as a run of bytes, whatever kind the length has. -/
theorem reads_binary_of_isHeader {header bytes : List UInt8}
    (h : IsHeader bytesLength bytes.length header) : Reads binary bytes (header ++ bytes) := by
  obtain ⟨code, length, rfl, hcode, hlength⟩ := h
  intro rest
  rw [List.cons_append, List.cons_append, List.append_assoc]
  -- how many bytes to take is known before the first of them
  simp only [binary, hlength (bytes ++ rest)]
  exact reads_take bytes rest

theorem reads_binary {bytes : List UInt8} (h : bytes.length < UInt32.size) :
    Reads binary bytes (Pack.binary bytes) := by
  unfold Pack.binary
  split
  next hempty =>
    rw [List.isEmpty_iff.mp hempty]
    intro rest
    rfl
  next => exact reads_binary_of_isHeader (isHeader_binary h)

theorem byteArray_toList (bytes : ByteArray) : bytes.toList = bytes.data.toList := by
  -- the loop holds the bytes before `i`, the last one first
  have hloop : ∀ i done, ByteArray.toList.loop bytes i done =
      done.reverse ++ bytes.data.toList.drop i := by
    intro i done
    fun_induction ByteArray.toList.loop bytes i done with
    | case1 i done hlt ih =>
      have hi : i < bytes.data.toList.length := by simpa using hlt
      rw [ih, List.drop_eq_getElem_cons hi]
      simp [hlt, ByteArray.get!]
    | case2 i done hge =>
      have hi : bytes.data.toList.length ≤ i := by simpa using hge
      rw [List.drop_of_length_le hi, List.append_nil]
  exact hloop 0 []

/-- The bytes of a text are read as the text. -/
@[simp]
theorem textOfBytes_bytesOfText (s : String) : Text.textOfBytes (Text.bytesOfText s) = s := by
  have hbytes : (⟨(Text.bytesOfText s).toArray⟩ : ByteArray) = s.toByteArray := by
    rw [Text.bytesOfText, byteArray_toList, String.toUTF8_eq_toByteArray]
  have htext : String.fromUTF8? s.toByteArray = some s := by
    rw [String.fromUTF8?, dif_pos s.isValidUTF8]
    rfl
  rw [Text.textOfBytes, hbytes, htext]

theorem bytesOfText_inj {s t : String} : Text.bytesOfText s = Text.bytesOfText t ↔ s = t := by
  constructor
  · intro h
    rw [← textOfBytes_bytesOfText s, h, textOfBytes_bytesOfText]
  · rintro rfl
    rfl

/-- The bytes of a text are read off what it is written as. -/
theorem reads_name {s : String} (h : (Text.bytesOfText s).length < UInt32.size) :
    Reads binary (Text.bytesOfText s) (Pack.text s) :=
  reads_binary_of_isHeader (isHeader_text h)

theorem reads_text {s : String} (h : (Text.bytesOfText s).length < UInt32.size) :
    Reads text s (Pack.text s) := by
  have hread := (reads_name h).map Text.textOfBytes
  rw [textOfBytes_bytesOfText] at hread
  exact hread

/-! ## Integers -/

theorem reads_uint8 (n : UInt8) : Reads integer n.toNat (Pack.uint8 n) :=
  (reads_number (show n.toNat < 256 ^ 1 from n.toNat_lt_size)).map fun n => (n : Int)

theorem reads_uint16 {n : Nat} (h : n < UInt16.size) : Reads integer n (Pack.uint16 n) :=
  (reads_number (show n < 256 ^ 2 from h)).map fun n => (n : Int)

theorem reads_uint32 (n : UInt32) : Reads integer n.toNat (Pack.uint32 n) :=
  (reads_number (show n.toNat < 256 ^ 4 from n.toNat_lt_size)).map fun n => (n : Int)

theorem reads_int64 (n : Int64) : Reads integer n.toInt (Pack.int64 n) := by
  -- the word is written, and its balanced remainder is the integer
  have hvalue : Int.bmod n.toUInt64.toNat (Nat.pow 2 (8 * 8)) = n.toInt :=
    (BitVec.toInt_eq_toNat_bmod n.toBitVec).symm
  rw [← hvalue]
  exact (reads_number (show n.toUInt64.toNat < 256 ^ 8 from n.toUInt64.toNat_lt_size)).map
    fun n => Int.bmod n (Nat.pow 2 (8 * 8))

@[simp]
theorem toWord32_toNat (n : UInt32) : toWord32 n.toNat = n := by
  have hmod : ((n.toNat : Int) % UInt32.size).toNat = n.toNat := by
    rw [Int.emod_eq_of_lt (Int.natCast_nonneg _) (Int.ofNat_lt.mpr n.toNat_lt_size),
      Int.toNat_natCast]
  rw [toWord32, hmod, UInt32.ofNat_toNat]

/-! ## Lists -/

/-- Values that are read off what they are written as are read one after another. -/
theorem reads_times {read : Reader α} {write : α → List UInt8} {items : List α}
    (h : ∀ a ∈ items, Reads read a (write a)) :
    Reads (times read items.length) items (items.flatMap write) := by
  induction items with
  | nil =>
    intro rest
    rfl
  | cons a items ih =>
    obtain ⟨ha, hitems⟩ := List.forall_mem_cons.mp h
    intro rest
    rw [List.flatMap_cons, List.append_assoc, List.length_cons, times]
    simp only [ha (items.flatMap write ++ rest), ih hitems rest]

theorem reads_texts {items : List String} (hlength : items.length < UInt32.size)
    (h : ∀ s ∈ items, (Text.bytesOfText s).length < UInt32.size) :
    Reads (texts []) items (Pack.list Pack.text items) := by
  unfold Pack.list
  split
  next hempty =>
    rw [List.isEmpty_iff.mp hempty]
    intro rest
    rfl
  next =>
    obtain ⟨code, length, hheader, hcode, hread⟩ := isHeader_array hlength
    intro rest
    rw [hheader, List.cons_append, List.cons_append, List.append_assoc]
    simp only [texts, hread (items.flatMap Pack.text ++ rest)]
    exact reads_times (fun s hs => reads_text (h s hs)) rest

/-- The places of a list that was read once. -/
def Slots.ofList (items : List α) : Slots α :=
  { items, length := items.length }

@[simp]
theorem Slots.toList_ofList (items : List α) : (Slots.ofList items).toList = items :=
  List.take_length

/-- Records that are read off what values are written as are read into empty places one after
another. -/
theorem reads_fill {zero : β} {read : β → Reader β} {entry : α → β} {write : α → List UInt8}
    {items : List α} (h : ∀ a ∈ items, Reads (read zero) (entry a) (write a)) :
    Reads (fill zero read items.length []) (items.map entry) (items.flatMap write) := by
  induction items with
  | nil =>
    intro rest
    rfl
  | cons a items ih =>
    obtain ⟨ha, hitems⟩ := List.forall_mem_cons.mp h
    intro rest
    rw [List.flatMap_cons, List.append_assoc, List.length_cons, fill]
    simp only [List.headD_nil, List.tail_nil, ha (items.flatMap write ++ rest), ih hitems rest,
      List.map_cons]

/-- A list of records is read off what it is written as. -/
theorem reads_slots {zero : β} {read : β → Reader β} {write : α → List UInt8}
    {items : List α} (entry : α → β) (hlength : items.length < UInt32.size)
    (h : ∀ a ∈ items, Reads (read zero) (entry a) (write a)) :
    Reads (slots zero read {}) (Slots.ofList (items.map entry)) (Pack.list write items) := by
  unfold Pack.list
  split
  next hempty =>
    rw [List.isEmpty_iff.mp hempty]
    intro rest
    rfl
  next =>
    obtain ⟨code, length, hheader, hcode, hread⟩ := isHeader_array hlength
    intro rest
    rw [hheader, List.cons_append, List.cons_append, List.append_assoc]
    simp only [slots, hread (items.flatMap write ++ rest), reads_fill h rest, Option.map_some,
      Slots.ofList, List.length_map]

/-! ## Records -/

/-- The fields of a record are told apart by their names, and neither the fields nor the bytes of a
name are too many to be counted in a header. -/
def Field.WellNamed (fields : List (Field α)) : Prop :=
  (fields.map Field.name).Nodup ∧ fields.length < UInt32.size ∧
    ∀ f ∈ fields, (Text.bytesOfText f.name).length < UInt32.size
  deriving Decidable

/-- A field is found by its name. -/
theorem Field.WellNamed.find?_eq_some {before after : List (Field α)} {f : Field α}
    (h : WellNamed (before ++ f :: after)) :
    (before ++ f :: after).find? (fun g => Text.bytesOfText g.name = Text.bytesOfText f.name) =
      some f := by
  have hnodup := h.1
  rw [List.map_append, List.map_cons, List.nodup_append] at hnodup
  refine List.find?_eq_some_iff_append.mpr ⟨decide_eq_true rfl, before, after, rfl, ?_⟩
  intro g hg
  have hne : g.name ≠ f.name :=
    hnodup.2.2 g.name (List.mem_map_of_mem hg) f.name List.mem_cons_self
  simpa only [bytesOfText_inj, Bool.not_eq_true', decide_eq_false_iff_not] using hne

/-- Values with the names of fields are read into a record by these fields, one after another, and
change it. -/
inductive ReadsFields : List (Field α) → α → List (String × List UInt8) → α → Prop where
  | nil (a : α) : ReadsFields [] a [] a
  | cons {f : Field α} {fields : List (Field α)} {a b c : α} {bytes : List UInt8}
      {rest : List (String × List UInt8)} (hread : Reads (f.read a) b bytes)
      (hrest : ReadsFields fields b rest c) :
      ReadsFields (f :: fields) a ((f.name, bytes) :: rest) c

namespace ReadsFields

section First

variable {fields : List (Field α)} {a c : α} {b : β} {name : String} {bytes : List UInt8}
  {rest : List (String × List UInt8)} {store : α → β → α}

/-- A first field whose value is read on its own. -/
theorem cons_of {read : Reader β} (hread : Reads read b bytes)
    (hrest : ReadsFields fields (store a b) rest c) :
    ReadsFields (.of name read store :: fields) a ((name, bytes) :: rest) c :=
  cons (hread.map (store a)) hrest

/-- A first field whose value is read into the one that is there. -/
theorem cons_within {read : β → Reader β} {get : α → β} (hread : Reads (read (get a)) b bytes)
    (hrest : ReadsFields fields (store a b) rest c) :
    ReadsFields (.within name read get store :: fields) a ((name, bytes) :: rest) c :=
  cons (hread.map (store a)) hrest

end First

theorem length_eq {fields : List (Field α)} {a c : α} {named : List (String × List UInt8)}
    (h : ReadsFields fields a named c) : named.length = fields.length := by
  induction h with
  | nil => rfl
  | cons _ _ ih => rw [List.length_cons, List.length_cons, ih]

/-- The last fields of a record are read off what their values are written as. -/
theorem reads_namedFields {fields : List (Field α)} {a c : α}
    {named : List (String × List UInt8)} (h : ReadsFields fields a named c)
    (before : List (Field α)) (hnames : Field.WellNamed (before ++ fields)) :
    Reads (namedFields (before ++ fields) named.length a) c
      (named.flatMap fun (name, bytes) => Pack.text name ++ bytes) := by
  induction h generalizing before with
  | nil a =>
    intro rest
    rfl
  | @cons f fields a b c bytes later hread _ ih =>
    have hname : (Text.bytesOfText f.name).length < UInt32.size :=
      hnames.2.2 f (List.mem_append_right before List.mem_cons_self)
    intro rest
    rw [List.flatMap_cons, List.append_assoc, List.append_assoc, List.length_cons, namedFields]
    simp only [reads_name hname _, hnames.find?_eq_some, hread _]
    -- the field that was read joins those before the others
    rw [List.append_cons] at hnames ⊢
    exact ih (before ++ [f]) hnames rest

/-- A record is read off what it is written as. -/
theorem reads_record {fields : List (Field α)} {a c : α}
    {named : List (String × List UInt8)} (h : ReadsFields fields a named c)
    (hnames : Field.WellNamed fields) (zero : α) :
    Reads (record zero fields a) c (Pack.record named) := by
  have hlength : named.length < UInt32.size := by
    rw [h.length_eq]
    exact hnames.2.1
  obtain ⟨code, length, hheader, hcode, hread⟩ := isHeader_map hlength
  intro rest
  rw [Pack.record, hheader, List.cons_append, List.cons_append, List.append_assoc]
  simp only [record, hread _]
  exact h.reads_namedFields [] hnames rest

end ReadsFields

end CodeEmission.Unpack
