import CodeEmission.Object.Basic
import CodeEmission.Text.Quoted

/-!
# Objects as Bytes

The container of an object is MessagePack. A record is a map from field names to values, in the
order in which the fields are declared, with none left out. Lengths take the shortest form that
holds them; integers keep the width of their field; an empty list and an empty run of bytes are
written as nil.
-/

namespace CodeEmission.Pack

/-- The lowest bytes of a number, the highest first. -/
def bigEndian (width n : Nat) : List UInt8 :=
  match width with
  | 0 => []
  | width + 1 => bigEndian width (n / 256) ++ [UInt8.ofNat (n % 256)]

/-- The code of nil. -/
def nil : List UInt8 := [0xc0]

/-- The start of a map of so many fields. -/
def mapHeader (n : Nat) : List UInt8 :=
  if n < 16 then [UInt8.ofNat (0x80 + n)]
  else if n < UInt16.size then 0xde :: bigEndian 2 n
  else 0xdf :: bigEndian 4 n

/-- The start of an array of so many elements. -/
def arrayHeader (n : Nat) : List UInt8 :=
  if n < 16 then [UInt8.ofNat (0x90 + n)]
  else if n < UInt16.size then 0xdc :: bigEndian 2 n
  else 0xdd :: bigEndian 4 n

/-- The start of a text of so many bytes. -/
def textHeader (n : Nat) : List UInt8 :=
  if n < 32 then [UInt8.ofNat (0xa0 + n)]
  else if n < UInt8.size then 0xd9 :: bigEndian 1 n
  else if n < UInt16.size then 0xda :: bigEndian 2 n
  else 0xdb :: bigEndian 4 n

/-- The start of a run of so many bytes. -/
def binaryHeader (n : Nat) : List UInt8 :=
  if n < UInt8.size then 0xc4 :: bigEndian 1 n
  else if n < UInt16.size then 0xc5 :: bigEndian 2 n
  else 0xc6 :: bigEndian 4 n

/-- A text. -/
def text (s : String) : List UInt8 :=
  let bytes := Text.bytesOfText s
  textHeader bytes.length ++ bytes

/-- A run of bytes. -/
def binary (bytes : List UInt8) : List UInt8 :=
  if bytes.isEmpty then nil else binaryHeader bytes.length ++ bytes

/-- An integer of one byte. -/
def uint8 (n : UInt8) : List UInt8 := 0xcc :: bigEndian 1 n.toNat

/-- An integer of two bytes. -/
def uint16 (n : Nat) : List UInt8 := 0xcd :: bigEndian 2 n

/-- An integer of four bytes. -/
def uint32 (n : UInt32) : List UInt8 := 0xce :: bigEndian 4 n.toNat

/-- A signed integer of eight bytes. -/
def int64 (n : Int64) : List UInt8 := 0xd3 :: bigEndian 8 n.toUInt64.toNat

/-- A list. -/
def list {α : Type} (f : α → List UInt8) (items : List α) : List UInt8 :=
  if items.isEmpty then nil else arrayHeader items.length ++ items.flatMap f

/-- A record: the names of its fields with their bytes. -/
def record (fields : List (String × List UInt8)) : List UInt8 :=
  mapHeader fields.length ++ fields.flatMap fun (name, bytes) => text name ++ bytes

/-- A relocation. -/
def reloc (r : Reloc) : List UInt8 :=
  record [("Offset", uint32 r.offset), ("Kind", text r.kind.text), ("Symbol", text r.symbol),
    ("Addend", int64 r.addend)]

/-- A section. -/
def section_ (s : Section) : List UInt8 :=
  record [("Name", text s.name), ("Align", uint32 s.align), ("Data", binary s.data),
    ("Relocs", list reloc s.relocs)]

/-- A symbol. -/
def symbol (s : Symbol) : List UInt8 :=
  record [("Name", text s.name), ("Kind", text s.kind.text), ("Binding", text s.binding.text),
    ("Section", text s.section_), ("Offset", uint32 s.offset), ("Size", uint32 s.size)]

/-- An unwind record. -/
def unwind (u : UnwindRecord) : List UInt8 :=
  record [("Func", text u.func), ("Kind", text u.kind), ("Personality", text u.personality),
    ("PersonalitySyms", list text u.personalitySyms)]

/-- An object. -/
def object (o : Object) : List UInt8 :=
  record [("Magic", text Object.magic), ("Schema", uint16 Object.schema), ("Unit", text o.unit),
    ("Format", text o.format), ("Arch", text o.arch), ("PointerSize", uint8 o.pointerSize),
    ("Sections", list section_ o.sections), ("Symbols", list symbol o.symbols),
    ("Unwind", list unwind o.unwind)]

/-- A fixed-width number takes as many bytes as its width. -/
theorem length_bigEndian (width n : Nat) : (bigEndian width n).length = width := by
  induction width generalizing n with
  | zero => rfl
  | succ width ih => simp [bigEndian, ih]

end CodeEmission.Pack
