import CodeEmission.Object.Basic
import CodeEmission.Text.Quoted

/-!
# Objects from Bytes

Reads the container of an object. The reader is more lenient than the writer: fields may stand in
any order, be missing, be unknown or be nil; integers may have any width and are cut to that of
their field; a text may be given as a run of bytes and the other way round; and a record may be
given as an array of all its fields in order, or as an empty array. What follows the object is
ignored.

A field may also be given more than once. A later value takes the place of an earlier one, but a
record, and a record in a list, is read into the one that is there: fields that the later reading
does not give keep their values. `Slots` is a list with what was read at its places before.

Names in a file are bytes. `ObjectFile` keeps those of sections and symbols as they are, since only
a name of the same bytes finds them; `ObjectFile.object` shows them as text.

A reader takes the bytes that are left and gives a value with the bytes after it, or nothing where
the bytes are malformed.
-/

namespace CodeEmission.Unpack

/-- A reader of values from bytes. -/
abbrev Reader (α : Type) := List UInt8 → Option (α × List UInt8)

/-- So many bytes. -/
def take (n : Nat) : Reader (List UInt8) := fun bytes =>
  let front := bytes.take n
  if front.length = n then some (front, bytes.drop n) else none

/-- The number that bytes spell, the highest first. -/
def ofBigEndian (bytes : List UInt8) : Nat :=
  bytes.foldl (fun n b => n * 256 + b.toNat) 0

/-- A number of so many bytes. -/
def number (width : Nat) : Reader Nat := fun bytes =>
  (take width bytes).map fun (front, rest) => (ofBigEndian front, rest)

/-- The length that a code starts, where it is that of a text or of a run of bytes. -/
def bytesLength (code : UInt8) : Reader Nat := fun rest =>
  if 0xa0 ≤ code ∧ code ≤ 0xbf then some (code.toNat - 0xa0, rest)
  else if code = 0xd9 ∨ code = 0xc4 then number 1 rest
  else if code = 0xda ∨ code = 0xc5 then number 2 rest
  else if code = 0xdb ∨ code = 0xc6 then number 4 rest
  else none

/-- A run of bytes or a text; nil is empty. -/
def binary : Reader (List UInt8)
  | [] => none
  | 0xc0 :: rest => some ([], rest)
  | code :: rest =>
    match bytesLength code rest with
    | none => none
    | some (n, rest) => take n rest

/-- A text; nil is empty. -/
def text : Reader String := fun bytes =>
  (binary bytes).map fun (front, rest) => (Text.textOfBytes front, rest)

/-- A number of so many bytes, read as signed. -/
def signed (width : Nat) : Reader Int := fun bytes =>
  (number width bytes).map fun (n, rest) => (Int.bmod n (Nat.pow 2 (8 * width)), rest)

/-- An integer of any width; nil is zero. -/
def integer : Reader Int
  | [] => none
  | code :: rest =>
    if code = 0xc0 then some (0, rest)
    else if code < 0x80 then some ((code.toNat : Int), rest)
    else if 0xe0 ≤ code then some ((code.toNat : Int) - 256, rest)
    else if code = 0xcc then (number 1 rest).map fun (n, r) => ((n : Int), r)
    else if code = 0xcd then (number 2 rest).map fun (n, r) => ((n : Int), r)
    else if code = 0xce then (number 4 rest).map fun (n, r) => ((n : Int), r)
    else if code = 0xcf then (number 8 rest).map fun (n, r) => ((n : Int), r)
    else if code = 0xd0 then signed 1 rest
    else if code = 0xd1 then signed 2 rest
    else if code = 0xd2 then signed 4 rest
    else if code = 0xd3 then signed 8 rest
    else none

/-- The length that a code starts, where it is that of a map. -/
def mapLength (code : UInt8) : Reader Nat := fun rest =>
  if 0x80 ≤ code ∧ code ≤ 0x8f then some (code.toNat - 0x80, rest)
  else if code = 0xde then number 2 rest
  else if code = 0xdf then number 4 rest
  else none

/-- The length that a code starts, where it is that of an array. -/
def arrayLength (code : UInt8) : Reader Nat := fun rest =>
  if 0x90 ≤ code ∧ code ≤ 0x9f then some (code.toNat - 0x90, rest)
  else if code = 0xdc then number 2 rest
  else if code = 0xdd then number 4 rest
  else none

/-- What is left to skip after the code of a value: so many bytes, and so many values after them. -/
def skipAfter (code : UInt8) : Reader (Nat × Nat) := fun rest =>
  let width (n : Nat) : Option ((Nat × Nat) × List UInt8) := some ((n, 0), rest)
  if code < 0x80 ∨ 0xe0 ≤ code ∨ code = 0xc0 ∨ code = 0xc2 ∨ code = 0xc3 then width 0
  else if code = 0xcc ∨ code = 0xd0 then width 1
  else if code = 0xcd ∨ code = 0xd1 then width 2
  else if code = 0xce ∨ code = 0xd2 ∨ code = 0xca then width 4
  else if code = 0xcf ∨ code = 0xd3 ∨ code = 0xcb then width 8
  else if code = 0xd4 then width 2
  else if code = 0xd5 then width 3
  else if code = 0xd6 then width 5
  else if code = 0xd7 then width 9
  else if code = 0xd8 then width 17
  else if code = 0xc7 then (number 1 rest).map fun (n, r) => ((n + 1, 0), r)
  else if code = 0xc8 then (number 2 rest).map fun (n, r) => ((n + 1, 0), r)
  else if code = 0xc9 then (number 4 rest).map fun (n, r) => ((n + 1, 0), r)
  else match mapLength code rest with
    | some (n, r) => some ((0, 2 * n), r)
    | none =>
      match arrayLength code rest with
      | some (n, r) => some ((0, n), r)
      | none => (bytesLength code rest).map fun (n, r) => ((n, 0), r)

/-- Skip so many values. Every value takes a byte, so the fuel is the number of bytes. -/
def skip : Nat → Nat → List UInt8 → Option (List UInt8)
  | _, 0, bytes => some bytes
  | 0, _ + 1, _ => none
  | _ + 1, _ + 1, [] => none
  | fuel + 1, pending + 1, code :: rest =>
    match skipAfter code rest with
    | none => none
    | some ((n, more), rest) =>
      match take n rest with
      | none => none
      | some (_, rest) => skip fuel (pending + more) rest

/-- So many values of one kind. -/
def times {α : Type} (read : Reader α) : Nat → Reader (List α)
  | 0, bytes => some ([], bytes)
  | n + 1, bytes =>
    match read bytes with
    | none => none
    | some (a, rest) =>
      match times read n rest with
      | none => none
      | some (as, rest) => some (a :: as, rest)

/-- A list of texts. Nil keeps the one that is there. -/
def texts (old : List String) : Reader (List String)
  | [] => none
  | 0xc0 :: rest => some (old, rest)
  | code :: rest =>
    match arrayLength code rest with
    | none => none
    | some (n, rest) => times text n rest

/-- A list whose places may have been filled before. Places beyond the length keep what was read
there by an earlier, longer list. -/
structure Slots (α : Type) where
  /-- What is at the places. -/
  items : List α := []
  /-- How many places belong to the list. -/
  length : Nat := 0
  deriving DecidableEq, Repr, Inhabited

/-- The items of the list. -/
def Slots.toList {α : Type} (s : Slots α) : List α :=
  s.items.take s.length

/-- So many values, each read into the one at its place or, beyond the last place, into an empty
one. Further places stay as they are. -/
def fill {α : Type} (zero : α) (read : α → Reader α) : Nat → List α → Reader (List α)
  | 0, old, bytes => some (old, bytes)
  | n + 1, old, bytes =>
    match read (old.headD zero) bytes with
    | none => none
    | some (a, rest) =>
      match fill zero read n old.tail rest with
      | none => none
      | some (as, rest) => some (a :: as, rest)

/-- A list of records. Nil empties all places. -/
def slots {α : Type} (zero : α) (read : α → Reader α) (old : Slots α) : Reader (Slots α)
  | [] => none
  | 0xc0 :: rest => some ({}, rest)
  | code :: rest =>
    match arrayLength code rest with
    | none => none
    | some (n, rest) =>
      (fill zero read n old.items rest).map fun (items, rest) => ({ items, length := n }, rest)

/-- A field of a record: its name and how its value enters the record. -/
structure Field (α : Type) where
  /-- The name. -/
  name : String
  /-- Read the value into the record. -/
  read : α → Reader α

/-- A field whose value is read on its own and then stored. -/
def Field.of {α β : Type} (name : String) (read : Reader β) (store : α → β → α) : Field α :=
  { name, read := fun a bytes => (read bytes).map fun (b, rest) => (store a b, rest) }

/-- A field whose value is read into the one that is there. -/
def Field.within {α β : Type} (name : String) (read : β → Reader β) (get : α → β)
    (store : α → β → α) : Field α :=
  { name, read := fun a bytes => (read (get a) bytes).map fun (b, rest) => (store a b, rest) }

/-- So many named fields. -/
def namedFields {α : Type} (fields : List (Field α)) : Nat → α → Reader α
  | 0, a, bytes => some (a, bytes)
  | n + 1, a, bytes =>
    match binary bytes with
    | none => none
    | some (key, rest) =>
      match fields.find? fun f => Text.bytesOfText f.name = key with
      | some f =>
        match f.read a rest with
        | none => none
        | some (a, rest) => namedFields fields n a rest
      | none =>
        match skip rest.length 1 rest with
        | none => none
        | some rest => namedFields fields n a rest

/-- All fields in order. -/
def orderedFields {α : Type} : List (Field α) → α → Reader α
  | [], a, bytes => some (a, bytes)
  | f :: fields, a, bytes =>
    match f.read a bytes with
    | none => none
    | some (a, rest) => orderedFields fields a rest

/-- A record, read into the one that is there. Nil and an empty array make it empty. -/
def record {α : Type} (zero : α) (fields : List (Field α)) (old : α) : Reader α
  | [] => none
  | 0xc0 :: rest => some (zero, rest)
  | code :: rest =>
    match mapLength code rest with
    | some (n, rest) => namedFields fields n old rest
    | none =>
      match arrayLength code rest with
      | none => none
      | some (n, rest) =>
        if n = 0 then some (zero, rest)
        else if n = fields.length then orderedFields fields old rest
        else none

/-- An integer cut to 32 bits. -/
def toWord32 (n : Int) : UInt32 := UInt32.ofNat (n % UInt32.size).toNat

/-- A relocation. -/
def reloc : Reloc → Reader Reloc := record {}
  [.of "Offset" integer fun r n => { r with offset := toWord32 n },
    .of "Kind" text fun r s => { r with kind := .ofText s },
    .of "Symbol" text fun r s => { r with symbol := s },
    .of "Addend" integer fun r n => { r with addend := Int64.ofInt n }]

/-- A section in a file. -/
structure SectionEntry where
  /-- The bytes of the name. -/
  name : List UInt8 := []
  /-- The alignment in bytes. -/
  align : UInt32 := 0
  /-- The bytes of the section. -/
  data : List UInt8 := []
  /-- The relocations. -/
  relocs : Slots Reloc := {}
  deriving DecidableEq, Repr, Inhabited

/-- The section of an entry. -/
def SectionEntry.toSection (s : SectionEntry) : Section :=
  { name := Text.textOfBytes s.name, align := s.align, data := s.data, relocs := s.relocs.toList }

/-- A section. -/
def section_ : SectionEntry → Reader SectionEntry := record {}
  [.of "Name" binary fun s name => { s with name },
    .of "Align" integer fun s n => { s with align := toWord32 n },
    .of "Data" binary fun s data => { s with data },
    .within "Relocs" (slots {} reloc) SectionEntry.relocs fun s relocs => { s with relocs }]

/-- A symbol in a file. -/
structure SymbolEntry where
  /-- The bytes of the name. -/
  name : List UInt8 := []
  /-- The symbol. -/
  symbol : Symbol := {}
  deriving DecidableEq, Repr, Inhabited

/-- A symbol. -/
def symbol : SymbolEntry → Reader SymbolEntry :=
  let word (name : String) (store : Symbol → String → Symbol) : Field SymbolEntry :=
    .of name text fun s t => { s with symbol := store s.symbol t }
  let number (name : String) (store : Symbol → UInt32 → Symbol) : Field SymbolEntry :=
    .of name integer fun s n => { s with symbol := store s.symbol (toWord32 n) }
  record {}
    [.of "Name" binary fun s name =>
        { name, symbol := { s.symbol with name := Text.textOfBytes name } },
      word "Kind" fun s kind => { s with kind := .ofText kind },
      word "Binding" fun s binding => { s with binding := .ofText binding },
      word "Section" fun s section_ => { s with section_ },
      number "Offset" fun s offset => { s with offset },
      number "Size" fun s size => { s with size }]

/-- An unwind record. -/
def unwind : UnwindRecord → Reader UnwindRecord := record {}
  [.of "Func" text fun u func => { u with func },
    .of "Kind" text fun u kind => { u with kind },
    .of "Personality" text fun u personality => { u with personality },
    .within "PersonalitySyms" texts UnwindRecord.personalitySyms
      fun u personalitySyms => { u with personalitySyms }]

end CodeEmission.Unpack

namespace CodeEmission

open Unpack in
/-- An object as it stands in a file. -/
structure ObjectFile where
  /-- The bytes of the opening text. -/
  magic : List UInt8 := []
  /-- The schema. -/
  schema : Nat := 0
  /-- The name of the unit. -/
  unit : String := ""
  /-- The name of the object format. -/
  format : String := ""
  /-- The name of the architecture. -/
  arch : String := ""
  /-- The width of a pointer in bytes. -/
  pointerSize : UInt8 := 0
  /-- The sections. -/
  sections : Slots SectionEntry := {}
  /-- The symbol table. -/
  symbols : Slots SymbolEntry := {}
  /-- The unwind records. -/
  unwind : Slots UnwindRecord := {}
  deriving DecidableEq, Repr, Inhabited

/-- Why bytes are no object. -/
inductive ObjectError where
  | malformed
  | badMagic (found : List UInt8)
  | badSchema (found : Nat)
  deriving DecidableEq, Repr

/-- The wording of a failure. -/
def ObjectError.message : ObjectError → String
  | malformed => "not an mcemit object"
  | badMagic found => "not an mcemit object: magic " ++ Text.quoteBytes found
  | badSchema found =>
    "not an mcemit object: schema " ++ Nat.repr found ++ ", want " ++ Nat.repr Object.schema

namespace ObjectFile

open Unpack in
/-- The container of an object. -/
def container : Reader ObjectFile := record {}
  [.of "Magic" binary fun c magic => { c with magic },
    .of "Schema" integer fun c n => { c with schema := (n % UInt16.size).toNat },
    .of "Unit" text fun c unit => { c with unit },
    .of "Format" text fun c format => { c with format },
    .of "Arch" text fun c arch => { c with arch },
    .of "PointerSize" integer fun c n => { c with pointerSize := UInt8.ofNat (n % UInt8.size).toNat },
    .within "Sections" (slots {} section_) ObjectFile.sections
      fun c sections => { c with sections },
    .within "Symbols" (slots {} symbol) ObjectFile.symbols fun c symbols => { c with symbols },
    .within "Unwind" (slots {} Unpack.unwind) ObjectFile.unwind
      fun c unwind => { c with unwind }] {}

/-- Read an object; what follows it is ignored. -/
def ofBytes (bytes : List UInt8) : Except ObjectError ObjectFile :=
  match container bytes with
  | none => .error .malformed
  | some (c, _) =>
    if c.magic ≠ Text.bytesOfText Object.magic then .error (.badMagic c.magic)
    else if c.schema ≠ Object.schema then .error (.badSchema c.schema)
    else .ok c

/-- The object, with its names as text. -/
def object (f : ObjectFile) : Object :=
  { unit := f.unit, format := f.format, arch := f.arch, pointerSize := f.pointerSize
    sections := f.sections.toList.map Unpack.SectionEntry.toSection
    symbols := f.symbols.toList.map Unpack.SymbolEntry.symbol
    unwind := f.unwind.toList }

/-- The first section of a name. -/
def section? (f : ObjectFile) (name : String) : Option Section :=
  (f.sections.toList.find? fun s => s.name = Text.bytesOfText name).map
    Unpack.SectionEntry.toSection

/-- The first symbol of a name. -/
def symbol? (f : ObjectFile) (name : String) : Option Symbol :=
  (f.symbols.toList.find? fun s => s.name = Text.bytesOfText name).map Unpack.SymbolEntry.symbol

end ObjectFile

/-- Read an object with its names as text. -/
def Object.ofBytes (bytes : List UInt8) : Except ObjectError Object :=
  (ObjectFile.ofBytes bytes).map ObjectFile.object

end CodeEmission
