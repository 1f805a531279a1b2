import CodeEmission.Proofs.Assembly.Legibility
import CodeEmission.Proofs.Object.Layout

/-!
# What the Data of an Assembly Text Stands For

The data part of an assembly text is instructions to an assembler. `DataImage.step` says what each
statement adds to the bytes, the symbols and the address fields of the section, and `DataImage.ofText`
what the data part of a text stands for. Both go by the characters of the text: the width of a value
follows from the word of its directive, a value is an integer if it reads as one and else a symbol with
an offset, and an alignment counts bytes or powers of two as its directive says.

Each statement of a legible line adds what the assembler of objects adds for the same part of a data
object:

* `DataImage.run_alignLines`: the fill bytes;
* `DataImage.step_datum`: a value;
* `DataImage.run_dataLines`, `DataImage.run_data`: a data object, and all of them.

So the data part of the text of a listing is the section of data of the object (`DataImage.ofText_render`).
-/

namespace CodeEmission

open Dialect (isNameChar isPlainChar IsSymbolName)
open Statement (directiveOf headWord)

/-- A field that the linker fills with the address of a symbol plus an addend. -/
structure AddressField where
  /-- Where it starts. -/
  place : Nat
  /-- How many bytes it has. -/
  width : Nat
  /-- The symbol. -/
  symbol : String
  /-- What is added to its address. -/
  addend : Int
  deriving DecidableEq, Repr

/-- What lines of data stand for. -/
structure DataImage where
  /-- The bytes. -/
  bytes : List UInt8 := []
  /-- The symbols with their places. -/
  symbols : List (String × Nat) := []
  /-- The fields that the linker fills. -/
  fields : List AddressField := []
  deriving DecidableEq, Repr

/-! ## Reading statements -/

namespace DataImage

/-- The width of the data that follows a directive. -/
def width? : String → Option Nat
  | ".byte" => some 1
  | ".short" => some 2
  | ".long" => some 4
  | ".quad" => some 8
  | _ => none

/-- The number of bytes that a directive and its amount align to. -/
def alignment? (word : String) (amount : Int) : Option Nat :=
  match word with
  | ".align" => some amount.toNat
  | ".p2align" => some (2 ^ amount.toNat)
  | _ => none

/-- Whether a directive says who sees a symbol, or what kind it has. That does not change the
section. -/
def isAboutSymbols : String → Bool
  | ".globl" | ".weak" | ".weak_definition" | ".weak_reference" | ".type" => true
  | ".subsections_via_symbols" => true
  | _ => false

/-- Fill up with zeros to a multiple of an alignment. -/
def align (n : Nat) (im : DataImage) : DataImage :=
  { im with bytes := im.bytes ++ List.replicate (alignUp n im.bytes.length - im.bytes.length) 0 }

/-- Define a symbol at the end. -/
def define (sym : String) (im : DataImage) : DataImage :=
  { im with symbols := im.symbols ++ [(sym, im.bytes.length)] }

/-- Append what of an integer fits a width, the lowest byte first. -/
def putInteger (width : Nat) (n : Int) (im : DataImage) : DataImage :=
  { im with bytes := im.bytes ++ littleEndian width (n % (256 ^ width : Nat)).toNat }

/-- Append an address field. -/
def putAddress (width : Nat) (sym : String) (addend : Int) (im : DataImage) : DataImage :=
  { im with
    bytes := im.bytes ++ List.replicate width 0
    fields := im.fields ++ [⟨im.bytes.length, width, sym, addend⟩] }

/-- Append a value. What does not read as an integer is a symbol with its offset. -/
def put? (width : Nat) (value : List Char) (im : DataImage) : Option DataImage :=
  match Text.integer? value with
  | some n => some (im.putInteger width n)
  | none =>
    let sym := String.ofList (value.takeWhile isNameChar)
    if IsSymbolName sym then
      (Dialect.offset? (value.dropWhile isNameChar)).map fun addend => im.putAddress width sym addend
    else none

/-- What a statement of the data part adds, if it can be read. -/
def step (im : DataImage) : Statement → Option DataImage
  | .label name => some (im.define name)
  | .directive word argument =>
    if isAboutSymbols word then some im
    -- what neither says who sees a symbol nor has a width is an alignment, or it cannot be read
    else match width? word with
      | some width => im.put? width argument.toList
      | none => do
        let amount ← Text.integer? argument.toList
        let n ← alignment? word amount
        return im.align n
  | .remark => some im
  | .instruction _ | .unreadable => none

/-- What statements of the data part add, one after another. -/
def run (im : DataImage) (statements : List Statement) : Option DataImage :=
  statements.foldlM step im

end DataImage

/-- Whether a statement enters a section. -/
def Statement.isSection : Statement → Bool
  | directive ".text" _ | directive ".data" _ | directive ".section" _ => true
  | _ => false

/-- Whether a statement enters the section of data. -/
def Statement.entersData : Statement → Bool
  | directive ".data" _ | directive ".section" "__DATA,__data" => true
  | _ => false

/-- The statements between the one that enters the section of data and the next section. -/
def Statement.dataPart (statements : List Statement) : List Statement :=
  (statements.dropWhile fun s => !s.entersData).tail.takeWhile fun s => !s.isSection

/-- What the data part of an assembly text stands for, if it can be read. -/
def DataImage.ofText (text : String) : Option DataImage :=
  run {} (Statement.dataPart (Statement.ofText text))

/-! ## What a chunk stands for -/

/-- The field of a relocation. -/
def Reloc.field (r : Reloc) : AddressField :=
  { place := r.offset.toNat, width := r.kind.width, symbol := r.symbol, addend := r.addend.toInt }

/-- A symbol with its place. -/
def Symbol.placed (s : Symbol) : String × Nat :=
  (s.name, s.offset.toNat)

namespace DataImage

/-- An image with a chunk after it. -/
def add (im : DataImage) (c : Chunk) : DataImage :=
  { bytes := im.bytes ++ c.bytes, symbols := im.symbols ++ c.symbols.map Symbol.placed
    fields := im.fields ++ c.relocs.map Reloc.field }

@[simp]
theorem bytes_add (im : DataImage) (c : Chunk) : (im.add c).bytes = im.bytes ++ c.bytes := rfl

theorem add_append (im : DataImage) (a b : Chunk) : im.add (a.append b) = (im.add a).add b := by
  simp [add, List.append_assoc]

/-- A chunk that holds nothing adds nothing. -/
theorem add_eq_self {im : DataImage} {c : Chunk} (hbytes : c.bytes = []) (hsymbols : c.symbols = [])
    (hrelocs : c.relocs = []) : im.add c = im := by
  simp [add, hbytes, hsymbols, hrelocs]

variable {p : Profile} {im : DataImage}

theorem run_append (front back : List Statement) :
    run im (front ++ back) = (run im front).bind fun im => run im back := by
  rw [run, List.foldlM_append]
  rfl

/-- Statements that add nothing change nothing. -/
theorem run_eq_self {statements : List Statement} (h : ∀ s ∈ statements, step im s = some im) :
    run im statements = some im := by
  induction statements with
  | nil => rfl
  | cons s rest ih =>
    obtain ⟨hs, hrest⟩ := List.forall_mem_cons.mp h
    rw [run, List.foldlM_cons, hs]
    exact ih hrest

/-! ## Alignment -/

/-- The fill bytes before an entity reach up to the next multiple of its alignment. -/
theorem padding_eq_replicate (n loc : Nat) (fill : UInt8) :
    padding n loc fill = List.replicate (alignUp n loc - loc) fill := by
  refine List.eq_replicate_iff.mpr ⟨?_, ?_⟩
  · have hlength := add_length_padding n loc fill
    omega
  · intro b hb
    unfold padding at hb
    split at hb
    · cases hb
    · exact List.eq_of_mem_replicate hb

/-- A power of two can be halved as often as its exponent says. -/
theorem trailingZeros_two_pow {fuel k : Nat} (h : k < fuel) : trailingZeros fuel (2 ^ k) = k := by
  induction fuel generalizing k with
  | zero => omega
  | succ fuel ih =>
    rw [trailingZeros]
    cases k with
    | zero => rfl
    | succ k =>
      have heven : 2 ^ (k + 1) % 2 = 0 := by
        rw [Nat.pow_succ]
        omega
      have hhalf : 2 ^ (k + 1) / 2 = 2 ^ k := by
        rw [Nat.pow_succ]
        omega
      rw [if_pos heven, hhalf, ih (by omega)]

/-- Two to the logarithm of an alignment is the alignment. -/
theorem two_pow_log2Align {n : Int64} (h : ¬ n ≤ 1)
    (hpower : ∃ k < 32, max 1 n.toInt.toNat = 2 ^ k) : 2 ^ log2Align n = n.toInt.toNat := by
  obtain ⟨k, hk, hpower⟩ := hpower
  have hbig : 1 < n.toInt := by
    rw [Int64.not_le] at h
    exact Int64.lt_iff_toInt_lt.mp h
  have hexact : n.toInt.toNat = 2 ^ k := by omega
  rw [log2Align, if_neg h, hexact, trailingZeros_two_pow (by omega)]

/-- A line of alignment adds the fill bytes of the alignment. -/
theorem run_alignLines (hp : p.IsUsual) {n : Int64}
    (hpower : ∃ k < 32, max 1 n.toInt.toNat = 2 ^ k) (weight : Nat) :
    run im ((Listing.alignLines p n false).map (Line.statement p)) =
      some (im.add { bytes := padding n.toInt.toNat im.bytes.length 0, align := weight }) := by
  unfold Listing.alignLines
  split
  next hsmall =>
    have hle : n.toInt ≤ 1 := Int64.le_iff_toInt_le.mp hsmall
    have hpadding : padding n.toInt.toNat im.bytes.length 0 = [] := by
      rw [padding, if_pos (by omega)]
    rw [add_eq_self hpadding rfl rfl]
    rfl
  next hbig =>
    have hadd : im.align n.toInt.toNat =
        im.add { bytes := padding n.toInt.toNat im.bytes.length 0, align := weight } := by
      rw [padding_eq_replicate]
      simp [align, add]
    have hargument (amount : Int) : (Line.align amount false).statement p =
        .directive (headWord p.alignDirective) (Text.ofInt amount) := by
      refine Eq.trans ?_
        (Statement.directiveOf_of_isPlainChar p.alignDirective (Dialect.isPlainChar_ofInt amount))
      exact congrArg (directiveOf p.alignDirective) String.append_empty
    -- the amount counts what its directive counts, so either way it says the alignment
    have hstep : step im ((Line.align (if p.alignInBytes then n.toInt else (log2Align n : Int))
        false).statement p) = some (im.align n.toInt.toNat) := by
      rw [hargument]
      rcases hp.align with ⟨hdirective, hunit⟩ | ⟨hdirective, hunit⟩
      · have hword : headWord p.alignDirective = ".align" := by
          rw [hdirective]
          rfl
        rw [hword, hunit]
        simp [step, isAboutSymbols, width?, alignment?, Text.integer?_ofInt]
      · have hword : headWord p.alignDirective = ".p2align" := by
          rw [hdirective]
          rfl
        rw [hword, hunit]
        simp [step, isAboutSymbols, width?, alignment?, Text.integer?_ofInt,
          two_pow_log2Align hbig hpower]
    rw [List.map_singleton, run, List.foldlM_cons, hstep, hadd]
    rfl

/-! ## Values -/

/-- A 64-bit integer and its word have the same low bytes. -/
theorem littleEndian_toUInt64 {width : Nat} (h : width ≤ 8) (n : Int64) :
    littleEndian width (n.toInt % (256 ^ width : Nat)).toNat =
      littleEndian width n.toUInt64.toNat := by
  have hbmod : n.toInt = Int.bmod n.toUInt64.toNat (2 ^ 64) :=
    BitVec.toInt_eq_toNat_bmod n.toBitVec
  -- the wrap at 64 bits lies beyond the bytes that are written
  have hdvd : ((256 ^ width : Nat) : Int) ∣ ((2 ^ 64 : Nat) : Int) := by
    refine Int.ofNat_dvd.mpr ?_
    rw [show (2 : Nat) ^ 64 = 256 ^ 8 by decide]
    exact Nat.pow_dvd_pow 256 h
  have hword : n.toInt % (256 ^ width : Nat) = ((n.toUInt64.toNat % 256 ^ width : Nat) : Int) := by
    rw [← Int.emod_emod_of_dvd n.toInt hdvd, hbmod, Int.bmod_emod, Int.emod_emod_of_dvd _ hdvd,
      Int.natCast_emod]
  rw [hword, Int.toNat_natCast, littleEndian_mod]

/-- A directive for data says how wide the data is. -/
theorem width?_of_dataDirective? (hp : p.IsUsual) {size : Int64} {directive : String}
    (h : p.dataDirective? size.toInt = some directive) :
    width? (headWord directive) = some size.toInt.toNat ∧
      isAboutSymbols (headWord directive) = false ∧
      (size = 1 ∨ size = 2 ∨ size = 4 ∨ size = 8) := by
  have hsize : ∀ n : Int64, size.toInt = n.toInt → size = n := fun _ => Int64.toInt_inj.mp
  rcases hp.directive_of_dataDirective? h with ⟨h1, hword⟩ | ⟨h2, hword⟩ | ⟨h4, hword⟩ | ⟨h8, hword⟩
  · rw [hword, h1]
    exact ⟨rfl, rfl, .inl (hsize 1 h1)⟩
  · rw [hword, h2]
    exact ⟨rfl, rfl, .inr (.inl (hsize 2 h2))⟩
  · rw [hword, h4]
    exact ⟨rfl, rfl, .inr (.inr (.inl (hsize 4 h4)))⟩
  · rw [hword, h8]
    exact ⟨rfl, rfl, .inr (.inr (.inr (hsize 8 h8)))⟩

/-- An integer is put as one. -/
theorem put?_ofInt (width : Nat) (n : Int) :
    im.put? width (Text.ofInt n).toList = some (im.putInteger width n) := by
  rw [put?, Text.integer?_ofInt]

/-- A symbol with its offset is put as one, since its name does not start as an integer does. -/
theorem put?_symPlus (width : Nat) {sym : String} (h : IsSymbolName sym) (off : Int64) :
    im.put? width (symPlus sym off).toList = some (im.putAddress width sym off.toInt) := by
  obtain ⟨offset, htext, hread, hhead, -⟩ := Dialect.exists_offset sym off
  obtain ⟨c, rest, hlist, hname, hdigit⟩ := h.exists_cons
  have hminus : c ≠ '-' := by
    rintro rfl
    exact absurd hname (by decide)
  have hinteger : Text.integer? (sym.toList ++ offset) = none := by
    rw [hlist]
    exact Text.integer?_eq_none_of_head hminus hdigit
  rw [htext, put?, hinteger]
  simp only [Text.takeWhile_run h.2.1 hhead, Text.dropWhile_run h.2.1 hhead, String.ofList_toList]
  rw [if_pos h, hread]
  rfl

/-- A line of data adds its value. -/
theorem step_datum (hp : p.IsUsual) {v : Datum} {i : Nat} {directive : String} {c : Chunk}
    (hdirective : p.dataDirective? v.size.toInt = some directive)
    (hname : v.sym = "" ∨ IsSymbolName v.sym) (hwide : v.sym = "" ∨ 4 ≤ v.size)
    (h : valueChunk im.bytes.length (v, i) = .ok c) :
    step im ((Line.datum directive v).statement p) = some (im.add c) := by
  obtain ⟨hwidth, hvalue, hsize⟩ := width?_of_dataDirective? hp hdirective
  have hput (hplain : ∀ c ∈ v.text.toList, isPlainChar c = true) :
      step im ((Line.datum directive v).statement p) =
        im.put? v.size.toInt.toNat v.text.toList := by
    have hstatement : (Line.datum directive v).statement p =
        .directive (headWord directive) v.text :=
      Statement.directiveOf_of_isPlainChar directive hplain
    rw [hstatement]
    simp [step, hvalue, hwidth]
  rcases valueChunk_eq_ok h with ⟨hsym, bytes, hbytes, rfl⟩ | ⟨hsym, hplace, rfl⟩
  · have htext : v.text = Text.ofInt v.int.toInt := by
      rw [Datum.text, if_pos hsym]
      rfl
    have hle : v.size.toInt.toNat ≤ 8 := by
      rcases hsize with hsize | hsize | hsize | hsize <;> rw [hsize] <;> decide
    rw [htext] at hput
    rw [hput (Dialect.isPlainChar_ofInt v.int.toInt), put?_ofInt, putInteger,
      littleEndian_toUInt64 hle, integerBytes?_eq_some hbytes]
    simp [add]
  · have hsymbol := hname.resolve_left hsym
    have htext : v.text = symPlus v.sym v.int := by
      rw [Datum.text, if_neg hsym]
    have hkind := Datum.width_of_symbol hsize (hwide.resolve_left hsym)
    rw [htext] at hput
    rw [hput (Dialect.target?_symPlus hsymbol.2.1 v.int).2, put?_symPlus _ hsymbol]
    simp [putAddress, add, Reloc.field, hkind, UInt32.toNat_ofNat_of_lt' hplace]

theorem run_values (hp : p.IsUsual) {data : String} {i j : Nat} {values : List Datum}
    {lines : List Line} {c : Chunk} (hlines : Listing.valueLines p data i values = .ok lines)
    (hnames : ∀ v ∈ values, v.sym = "" ∨ IsSymbolName v.sym)
    (hwide : ∀ v ∈ values, v.sym = "" ∨ 4 ≤ v.size)
    (h : Chunk.concat valueChunk im.bytes.length (values.zipIdx j) = .ok c) :
    run im (lines.map (Line.statement p)) = some (im.add c) := by
  induction values generalizing i j lines im c with
  | nil =>
    cases hlines
    rw [Chunk.concat_nil_eq_ok_iff.mp h, add_eq_self rfl rfl rfl]
    rfl
  | cons v rest ih =>
    obtain ⟨directive, later, hdirective, hlater, rfl⟩ := Listing.valueLines_cons_eq_ok hlines
    rw [List.zipIdx_cons] at h
    obtain ⟨piece, after, hpiece, hafter, rfl⟩ := Chunk.concat_cons_eq_ok_iff.mp h
    rw [List.forall_mem_cons] at hnames hwide
    have hone : run im [(Line.datum directive v).statement p] = some (im.add piece) := by
      rw [run, List.foldlM_cons, step_datum hp hdirective hnames.1 hwide.1 hpiece]
      rfl
    rw [← List.length_append, ← bytes_add] at hafter
    rw [List.map_cons, ← List.singleton_append, run_append, hone, Option.bind_some,
      ih hlater hnames.2 hwide.2 hafter, add_append]

/-! ## Data objects -/

/-- Who sees a symbol is nothing that is in the section. -/
theorem run_linkageLines (hp : p.IsUsual) {sym : String} {l : Linkage}
    (h : ∀ line ∈ Listing.linkageLines p sym l, line.HasDirective p) :
    run im ((Listing.linkageLines p sym l).map (Line.statement p)) = some im := by
  refine run_eq_self (List.forall_mem_map.mpr fun line hline => ?_)
  have hdirective := h line hline
  rcases Listing.mem_linkageLines hline with rfl | rfl | rfl
  · change step im (directiveOf p.globalDirective sym) = some im
    rw [hp.globalDirective]
    rfl
  · rw [Line.statement_weakDefinition hdirective, hp.weakDefinition.resolve_left hdirective]
    rfl
  · rw [Line.statement_weakReference hdirective]
    rcases hp.weakReference.resolve_left hdirective with hword | hword
    · rw [hword]
      rfl
    · rw [hword]
      rfl

/-- The lines of a data object add what is assembled for it. -/
theorem run_dataLines (hp : p.IsUsual) {d : DataObject} (hfaults : d.faults = [])
    (hnames : ∀ v ∈ d.values, v.sym = "" ∨ IsSymbolName v.sym) {lines : List Line} {c : Chunk}
    (hlines : Listing.dataLines p d = .ok lines) (hdirective : ∀ line ∈ lines, line.HasDirective p)
    (h : dataChunk p im.bytes.length d = .ok c) :
    run im (lines.map (Line.statement p)) = some (im.add c) := by
  obtain ⟨body, hbody, rfl⟩ := Listing.dataLines_eq_ok hlines
  obtain ⟨fill, start, values, rfl, hstart, hlow, -, hvalues, rfl⟩ := dataChunk_eq_ok h
  simp only [List.forall_mem_append] at hdirective
  obtain ⟨⟨⟨⟨-, hlinkage⟩, -⟩, -⟩, -⟩ := hdirective
  have halign : run im ((Listing.alignLines p d.align false).map (Line.statement p)) =
      some (im.add _) :=
    run_alignLines hp (DataObject.exists_power_align hfaults) (max 1 d.align.toInt.toNat)
  have htype : ∀ im' : DataImage, run im'
      ((if p.format = .elf then [.objectType d.emittedName] else []).map (Line.statement p)) =
        some im' := by
    intro im'
    split <;> rfl
  -- the symbol stands where the fill bytes end
  have hlabel : ∀ im' : DataImage, im'.bytes.length = start →
      run im' ([.label d.emittedName].map (Line.statement p)) =
        some (im'.add { symbols := [d.dataSymbol p start values.bytes.length] }) := by
    intro im' hend
    have hplaced : (d.dataSymbol p start values.bytes.length).placed =
        (d.emittedName, im'.bytes.length) := by
      rw [hend, Symbol.placed, DataObject.dataSymbol, UInt32.toNat_ofNat_of_lt' hlow]
    simp [run, step, define, add, hplaced, Line.statement]
  -- fill bytes, symbol and values are three chunks, read one after another
  generalize hpad : ({ bytes := padding d.align.toInt.toNat im.bytes.length 0
                       align := max 1 d.align.toInt.toNat } : Chunk) = pad at halign ⊢
  have hend : (im.add pad).bytes.length = start := by
    rw [hstart, ← hpad, bytes_add, List.length_append]
  generalize hname : ({ symbols := [d.dataSymbol p start values.bytes.length] } : Chunk) = name
    at hlabel ⊢
  have hstill : ((im.add pad).add name).bytes.length = start := by
    rw [← hname, bytes_add, List.append_nil, hend]
  have hwide : ∀ v ∈ d.values, v.sym = "" ∨ 4 ≤ v.size :=
    fun v hv => (DataObject.size_of_faultless hfaults hv).2
  rw [← hstill] at hvalues
  rw [List.map_append, List.map_append, List.map_append, List.map_append, run_append, run_append,
    run_append, run_append, halign, Option.bind_some, run_linkageLines hp hlinkage,
    Option.bind_some, htype, Option.bind_some, hlabel _ hend, Option.bind_some,
    run_values hp hbody hnames hwide hvalues, add_append, add_append]

/-- The lines of data objects add what is assembled for them. -/
theorem run_data (hp : p.IsUsual) {data : List DataObject} {lines : List (List Line)} {c : Chunk}
    (hfaults : ∀ d ∈ data, d.faults = [])
    (hnames : ∀ d ∈ data, ∀ v ∈ d.values, v.sym = "" ∨ IsSymbolName v.sym)
    (hlines : data.mapM (Listing.dataLines p) = .ok lines)
    (hdirective : ∀ line ∈ lines.flatten, line.HasDirective p)
    (h : Chunk.concat (dataChunk p) im.bytes.length data = .ok c) :
    run im (lines.flatten.map (Line.statement p)) = some (im.add c) := by
  induction data generalizing im lines c with
  | nil =>
    cases hlines
    rw [Chunk.concat_nil_eq_ok_iff.mp h, add_eq_self rfl rfl rfl]
    rfl
  | cons d rest ih =>
    simp only [List.mapM_cons, bind_eq_ok_iff] at hlines
    obtain ⟨first, hfirst, later, hlater, hall⟩ := hlines
    obtain ⟨piece, after, hpiece, hafter, rfl⟩ := Chunk.concat_cons_eq_ok_iff.mp h
    rw [List.forall_mem_cons] at hfaults hnames
    rw [← Except.ok.inj hall, List.flatten_cons, List.forall_mem_append] at hdirective
    rw [← List.length_append, ← bytes_add] at hafter
    rw [← Except.ok.inj hall, List.flatten_cons, List.map_append, run_append,
      run_dataLines hp hfaults.1 hnames.1 hfirst hdirective.1 hpiece, Option.bind_some,
      ih hfaults.2 hnames.2 hlater hdirective.2 hafter, add_append]

end DataImage

/-! ## The data part of a listing -/

/-- A directive of another word enters no section. -/
theorem Statement.section_directiveOf {head : String} (h : headWord head ∉ [".text", ".data", ".section"])
    (argument : String) :
    (directiveOf head argument).isSection = false ∧ (directiveOf head argument).entersData = false := by
  simp only [List.mem_cons, List.not_mem_nil, or_false, not_or] at h
  unfold directiveOf isSection entersData
  generalize headWord head = word at h
  simp [h]

/-- Whether a line enters a section. -/
def Line.isSection : Line → Bool
  | textSection | dataSection | nonexecStack => true
  | _ => false

namespace Line

variable {p : Profile} {line : Line}

/-- The lines that enter a section are read as such, and so is the one that enters the section of
data. -/
theorem section_statement (hp : p.IsUsual) (hlegible : line.IsLegible p)
    (hdirective : line.HasDirective p) :
    (line.statement p).isSection = line.isSection ∧
      (line.statement p).entersData = decide (line = .dataSection) := by
  cases line with
  | textSection =>
    change (Statement.read p.textSectionDirective.toList).isSection = true ∧
      (Statement.read p.textSectionDirective.toList).entersData = false
    rcases hp.enterText with hword | hword <;> rw [hword] <;> decide
  | dataSection =>
    change (Statement.read p.dataSectionDirective.toList).isSection = true ∧
      (Statement.read p.dataSectionDirective.toList).entersData = true
    rcases hp.enterData with hword | hword <;> rw [hword] <;> decide
  | nonexecStack =>
    change (directiveOf "\t.section\t" (p.nonexecStackSection ++ ",\"\",@progbits")).isSection = true ∧
      (directiveOf "\t.section\t" (p.nonexecStackSection ++ ",\"\",@progbits")).entersData = false
    rcases hp.nonexecStack with hstack | hstack <;> rw [hstack] <;> decide
  | align amount fill =>
    refine Statement.section_directiveOf ?_ _
    rcases hp.align with ⟨hword, -⟩ | ⟨hword, -⟩ <;> rw [hword] <;> decide
  | exported sym =>
    refine Statement.section_directiveOf ?_ sym
    rw [hp.globalDirective]
    decide
  | weakDefinition sym =>
    rw [statement_weakDefinition hdirective, hp.weakDefinition.resolve_left hdirective]
    exact Statement.section_directiveOf (by decide) sym
  | weakReference sym =>
    rw [statement_weakReference hdirective]
    rcases hp.weakReference.resolve_left hdirective with hword | hword
    · rw [hword]
      exact Statement.section_directiveOf (by decide) sym
    · rw [hword]
      exact Statement.section_directiveOf (by decide) sym
  | tableEntry target table =>
    refine Statement.section_directiveOf ?_ _
    rw [hp.data32]
    decide
  | datum directive value =>
    obtain ⟨⟨size, hdirective⟩, -⟩ := hlegible
    refine Statement.section_directiveOf ?_ _
    rcases hp.directive_of_dataDirective? hdirective with
      ⟨-, hword⟩ | ⟨-, hword⟩ | ⟨-, hword⟩ | ⟨-, hword⟩ <;> rw [hword] <;> decide
  | _ => exact ⟨rfl, rfl⟩

end Line

namespace Statement

variable {front body rest : List Statement}

/-- Without a statement that enters the section there is no data part. -/
theorem dataPart_eq_nil (h : ∀ s ∈ front, s.entersData = false) : dataPart front = [] := by
  have hnone : (front ++ []).dropWhile (fun s => !entersData s) = [] :=
    List.dropWhile_append_of_pos fun s hs => by rw [h s hs]; rfl
  rw [List.append_nil] at hnone
  rw [dataPart, hnone]
  rfl

/-- The data part starts after the first statement that enters the section and ends before the next
section. -/
theorem dataPart_append {enter : Statement} (hfront : ∀ s ∈ front, s.entersData = false)
    (henter : enter.entersData = true) (hbody : ∀ s ∈ body, s.isSection = false) :
    dataPart (front ++ enter :: (body ++ rest)) = body ++ rest.takeWhile fun s => !s.isSection := by
  have hskip : (front ++ enter :: (body ++ rest)).dropWhile (fun s => !entersData s) =
      enter :: (body ++ rest) := by
    rw [List.dropWhile_append_of_pos fun s hs => by rw [hfront s hs]; rfl,
      List.dropWhile_cons_of_neg (by simp [henter])]
  rw [dataPart, hskip, List.tail_cons]
  refine List.takeWhile_append_of_pos fun s hs => ?_
  rw [hbody s hs]
  rfl

end Statement

namespace Listing

variable {p : Profile} {u : CodeUnit} {lines : List Line}

/-- Where all that is about sections and who sees a symbol is a linkage, no section is entered. -/
theorem isSection_eq_false {sym : String} {l : Linkage}
    (h : lines.filter Line.isLinkage = linkageLines p sym l) :
    ∀ line ∈ lines, line.isSection = false := by
  intro line hline
  refine Bool.eq_false_iff.mpr fun hsection => ?_
  have hmem : line ∈ linkageLines p sym l := by
    rw [← h]
    refine List.mem_filter.mpr ⟨hline, ?_⟩
    cases line <;> first | rfl | cases hsection
  rcases mem_linkageLines hmem with rfl | rfl | rfl <;> cases hsection

/-- The data part of a listing is the lines of the data objects, with nothing after them that adds
to the section. -/
theorem dataPart_of_ofUnit (hp : p.IsUsual) (h : ofUnit p u = .ok lines)
    (hlegible : ∀ line ∈ lines, line.IsLegible p) (hdirective : ∀ line ∈ lines, line.HasDirective p) :
    ∃ data rest, u.data.mapM (dataLines p) = .ok data ∧ (∀ line ∈ data.flatten, line ∈ lines) ∧
      Statement.dataPart (lines.map (Line.statement p) ++ [.remark]) =
        data.flatten.map (Line.statement p) ++ rest ∧
      ∀ s ∈ rest, s = .remark ∨ s = Line.subsections.statement p := by
  have hsection : ∀ line ∈ lines, (line.statement p).isSection = line.isSection ∧
      (line.statement p).entersData = decide (line = .dataSection) := fun line hline =>
    Line.section_statement hp (hlegible line hline) (hdirective line hline)
  obtain ⟨funcs, data, hfuncs, hdata, rfl⟩ := ofUnit_eq_ok h
  have hfuncLines : ∀ line ∈ funcs.flatten, line.isSection = false :=
    (forall_mem_flatten_of_mapM (Q := fun _ => True) hfuncs fun _ _ _ hf =>
      iff_true_intro (isSection_eq_false (filter_funcLines hf).2)).mpr fun _ _ => trivial
  have hdataLines : ∀ line ∈ data.flatten, line.isSection = false :=
    (forall_mem_flatten_of_mapM (Q := fun _ => True) hdata fun _ _ _ hd =>
      iff_true_intro (isSection_eq_false (filter_dataLines hd).2)).mpr fun _ _ => trivial
  have hheader : ∀ line ∈ header p u, line ≠ .dataSection := by
    unfold header
    split <;> split <;> simp
  have hfooter : ∀ line ∈ footer p, line ≠ .dataSection ∧
      (line.isSection = false → line = .subsections) := by
    unfold footer
    split <;> split <;> simp [Line.isSection]
  -- up to the section of data no line enters it
  have hfront : ∀ line ∈ header p u ++ (if u.funcs.isEmpty then [] else [.textSection]) ++
      funcs.flatten, line ≠ .dataSection := by
    intro line hline
    rcases List.mem_append.mp hline with hline | hline
    · rcases List.mem_append.mp hline with hline | hline
      · exact hheader line hline
      · split at hline
        · cases hline
        · rw [List.mem_singleton.mp hline]
          nofun
    · rintro rfl
      exact absurd (hfuncLines _ hline) (by decide)
  generalize header p u ++ (if u.funcs.isEmpty then [] else [.textSection]) ++ funcs.flatten =
    front at hfront hsection
  cases hlist : u.data with
  | nil =>
    rw [hlist, List.mapM_nil] at hdata
    obtain rfl : [] = data := Except.ok.inj hdata
    refine ⟨[], [], rfl, by simp, Statement.dataPart_eq_nil ?_, nofun⟩
    simp only [hlist, List.isEmpty_nil, if_true, List.flatten_nil, List.append_nil] at hsection ⊢
    refine List.forall_mem_append.mpr ⟨List.forall_mem_map.mpr fun line hline => ?_, by simp; rfl⟩
    rw [(hsection line hline).2]
    rcases List.mem_append.mp hline with hline | hline
    · exact decide_eq_false (hfront line hline)
    · exact decide_eq_false (hfooter line hline).1
  | cons d later =>
    have hlines : front ++ (if u.data.isEmpty then [] else [.dataSection]) ++ data.flatten ++
        footer p = front ++ .dataSection :: (data.flatten ++ footer p) := by
      simp [hlist]
    rw [hlines] at hsection
    rw [hlist] at hdata
    rw [← hlist, hlines]
    refine ⟨data, ((footer p).map (Line.statement p) ++ [Statement.remark]).takeWhile
      fun s => !s.isSection,
      hlist ▸ hdata, fun line hline => ?_, ?_, ?_⟩
    · simp [hline]
    · rw [List.map_append, List.map_cons, List.map_append, List.append_assoc, List.cons_append,
        List.append_assoc]
      refine Statement.dataPart_append (List.forall_mem_map.mpr fun line hline => ?_) ?_
        (List.forall_mem_map.mpr fun line hline => ?_)
      · rw [(hsection line (by simp [hline])).2]
        exact decide_eq_false (hfront line hline)
      · rw [(hsection .dataSection (by simp)).2]
        rfl
      · rw [(hsection line (by simp [hline])).1, hdataLines line hline]
    · intro s hs
      have hkept : (!s.isSection) = true := List.all_eq_true.mp List.all_takeWhile s hs
      rcases List.mem_append.mp ((List.takeWhile_sublist _).subset hs) with hs | hs
      · obtain ⟨line, hline, rfl⟩ := List.mem_map.mp hs
        rw [(hsection line (by simp [hline])).1] at hkept
        exact .inr (congrArg (Line.statement p) ((hfooter line hline).2 (by simpa using hkept)))
      · exact .inl (List.mem_singleton.mp hs)

end Listing

/-- The data part of the text of a legible unit is what is assembled for the data objects. -/
theorem DataImage.ofText_render {p : Profile} (hp : p.IsUsual) {u : CodeUnit} {lines : List Line}
    {c : Chunk} (hverify : verify (some u) = .ok ()) (hlegible : u.IsLegible p.dialect)
    (hlines : Listing.ofUnit p u = .ok lines) (hdirective : ∀ line ∈ lines, line.HasDirective p)
    (h : Chunk.concat (dataChunk p) 0 u.data = .ok c) :
    ofText (Listing.render p lines) = some (add {} c) := by
  have hlegibleLines := Listing.isLegible_of_ofUnit hlegible hlines
  obtain ⟨data, rest, hdata, hmem, hpart, hrest⟩ :=
    Listing.dataPart_of_ofUnit hp hlines hlegibleLines hdirective
  have hfaults : ∀ d ∈ u.data, d.faults = [] := fun _ => data_faults_of_verify hverify
  have hnames : ∀ d ∈ u.data, ∀ v ∈ d.values, v.sym = "" ∨ IsSymbolName v.sym :=
    fun d hd v hv => hlegible.mentioned v.sym (List.mem_append_right _
      (List.mem_flatMap.mpr ⟨d, hd, List.mem_map_of_mem hv⟩))
  have hrun : run {} (data.flatten.map (Line.statement p)) = some (add {} c) :=
    run_data hp hfaults hnames hdata (fun line hline => hdirective line (hmem line hline)) h
  rw [ofText, Statement.ofText_render hp hlegibleLines, hpart, run_append, hrun, Option.bind_some]
  refine run_eq_self fun s hs => ?_
  rcases hrest s hs with rfl | rfl <;> rfl

end CodeEmission
