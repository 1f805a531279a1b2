import CodeEmission.Proofs.Object.Linking
import Mathlib.Algebra.Group.Int.Defs
import Mathlib.Data.List.Induction

/-!
# Linked Sections

A linker fills the fields of a section one after another, in the order of the relocations. Fields
may overlap, and then the later one is seen.

A field of eight bytes can be replaced by one of four if nothing is lost: the address fits four
bytes, and the other four are zero already. `getElem?_fill_narrowed` says so for each byte of a
section whose relocations are in the order of their places.
-/

namespace CodeEmission

/-! ## Little-endian numbers -/

/-- The bytes of a number are its low bytes and then the bytes of what is left. -/
theorem littleEndian_add (a b n : Nat) :
    littleEndian (a + b) n = littleEndian a n ++ littleEndian b (n / 256 ^ a) := by
  induction a generalizing n with
  | zero => simp [littleEndian]
  | succ a ih =>
    rw [Nat.succ_add, littleEndian, ih, littleEndian, List.cons_append, Nat.pow_succ',
      Nat.div_div_eq_div_mul]

/-- All bytes of zero are zero. -/
theorem littleEndian_zero (width : Nat) : littleEndian width 0 = List.replicate width 0 := by
  induction width with
  | zero => rfl
  | succ width ih =>
    rw [littleEndian, Nat.zero_div, ih, List.replicate_succ]
    rfl

/-! ## Filling fields -/

/-- Bytes with others stored over them from a place on. What would lie beyond the end is lost. -/
def store (bytes : List UInt8) (place : Nat) (new : List UInt8) : List UInt8 :=
  bytes.mapIdx fun i b => if place ≤ i then new.getD (i - place) b else b

section Store

variable {bytes new : List UInt8} {place i : Nat}

/-- Before and after a field nothing changes. -/
theorem getElem?_store_of_outside (h : i < place ∨ place + new.length ≤ i) :
    (store bytes place new)[i]? = bytes[i]? := by
  rw [store, List.getElem?_mapIdx]
  cases bytes[i]? with
  | none => rfl
  | some b =>
    rw [Option.map_some, Option.some.injEq]
    split
    next hle => rw [List.getD_eq_getElem?_getD, List.getElem?_eq_none (by omega), Option.getD_none]
    next => rfl

/-- In a field there is what was stored. -/
theorem getElem?_store_of_inside (bytes new : List UInt8) (place : Nat) {j : Nat}
    (h : j < new.length) :
    (store bytes place new)[place + j]? = bytes[place + j]?.bind fun _ => new[j]? := by
  rw [store, List.getElem?_mapIdx]
  cases bytes[place + j]? with
  | none => rfl
  | some b =>
    rw [Option.map_some, Option.bind_some, if_pos (Nat.le_add_right _ _), Nat.add_sub_cancel_left,
      List.getD_eq_getElem?_getD, List.getElem?_eq_getElem h, Option.getD_some]

end Store

namespace Reloc

/-- The bytes that a linker stores for a relocation in a section at `base`, given the addresses of
symbols. -/
def stored (base : Int) (addr : String → Int) (r : Reloc) : List UInt8 :=
  match r.kind with
  | .abs64 => littleEndian 8 (BitVec.ofInt 64 (addr r.symbol + r.addend.toInt)).toNat
  | _ => ((r.linked? base addr).map fun word => littleEndian 4 word.toNat).getD []

/-- The relocation with a field of four bytes for one of eight. -/
def narrowed (r : Reloc) : Reloc :=
  if r.kind = .abs64 then { r with kind := .abs32 } else r

variable {r : Reloc}

theorem narrowed_eq_self (h : r.kind ≠ .abs64) : r.narrowed = r :=
  if_neg h

@[simp]
theorem offset_narrowed (r : Reloc) : r.narrowed.offset = r.offset := by
  unfold narrowed
  split <;> rfl

@[simp]
theorem symbol_narrowed (r : Reloc) : r.narrowed.symbol = r.symbol := by
  unfold narrowed
  split <;> rfl

/-- The address that a relocation stands for can be stored in four bytes. -/
def Fits (addr : String → Int) (r : Reloc) : Prop :=
  0 ≤ addr r.symbol + r.addend.toInt ∧ addr r.symbol + r.addend.toInt < 2 ^ 32

/-- A narrowed field takes four bytes at most. -/
theorem length_stored_narrowed_le (base : Int) (addr : String → Int) (r : Reloc) :
    (r.narrowed.stored base addr).length ≤ 4 := by
  unfold narrowed
  split
  next => simp [stored, linked?]
  next hkind =>
    obtain ⟨offset, kind, symbol, addend⟩ := r
    cases kind <;> simp_all [stored, linked?]

/-- A field of eight bytes holds what the narrowed one holds and then four bytes more, which are
zero if the address fits. -/
theorem stored_eq_append (h : r.kind = .abs64) (base : Int) (addr : String → Int) :
    ∃ high, r.stored base addr = r.narrowed.stored base addr ++ high ∧ high.length = 4 ∧
      (r.narrowed.stored base addr).length = 4 ∧ (r.Fits addr → high = List.replicate 4 0) := by
  obtain ⟨offset, kind, symbol, addend⟩ := r
  subst h
  generalize hword : (BitVec.ofInt 64 (addr symbol + addend.toInt)).toNat = word
  -- both fields hold the same address, cut off at their widths
  have hlow : (BitVec.ofInt 32 (addr symbol + addend.toInt)).toNat = word % 256 ^ 4 := by
    rw [← hword, BitVec.toNat_ofInt, BitVec.toNat_ofInt]
    omega
  have hstored : stored base addr ⟨offset, .abs64, symbol, addend⟩ = littleEndian 8 word := by
    rw [← hword]
    rfl
  have hnarrowed : stored base addr (narrowed ⟨offset, .abs64, symbol, addend⟩) =
      littleEndian 4 word := by
    rw [← littleEndian_mod 4 word, ← hlow]
    rfl
  refine ⟨littleEndian 4 (word / 256 ^ 4), ?_, length_littleEndian _ _, ?_, fun hfits => ?_⟩
  · rw [hstored, hnarrowed, ← littleEndian_add]
  · rw [hnarrowed, length_littleEndian]
  · have hzero : word / 256 ^ 4 = 0 := by
      rw [← hword, BitVec.toNat_ofInt]
      obtain ⟨hnonneg, hlt⟩ := hfits
      dsimp only at hnonneg hlt
      omega
    rw [hzero, littleEndian_zero]

end Reloc

/-- Bytes with all fields filled, one after another. -/
def fill (base : Int) (addr : String → Int) (bytes : List UInt8) (relocs : List Reloc) :
    List UInt8 :=
  relocs.foldl (fun bytes r => store bytes r.offset.toNat (r.stored base addr)) bytes

section Fill

variable {base : Int} {addr : String → Int} {bytes : List UInt8} {relocs : List Reloc} {i : Nat}

theorem fill_concat (base : Int) (addr : String → Int) (bytes : List UInt8) (relocs : List Reloc)
    (r : Reloc) : fill base addr bytes (relocs ++ [r]) =
      store (fill base addr bytes relocs) r.offset.toNat (r.stored base addr) := by
  simp [fill, List.foldl_append]

/-- Beyond all fields nothing changes. -/
theorem getElem?_fill_of_beyond
    (h : ∀ r ∈ relocs, r.offset.toNat + (r.stored base addr).length ≤ i) :
    (fill base addr bytes relocs)[i]? = bytes[i]? := by
  induction relocs using List.reverseRecOn with
  | nil => rfl
  | append_singleton relocs r ih =>
    rw [fill_concat, getElem?_store_of_outside (.inr (h r (by simp)))]
    exact ih fun r hr => h r (by simp [hr])

/-- Narrowed fields are filled with the same bytes if the relocations are in the order of their
places and the bytes that are no longer filled are zero. Only the byte at a place where an address
does not fit may differ. -/
theorem getElem?_fill_narrowed
    (hsorted : relocs.Pairwise fun a b => a.offset.toNat ≤ b.offset.toNat)
    (hzero : ∀ r ∈ relocs, r.kind = .abs64 → ∀ j, 4 ≤ j → j < 8 →
      bytes[r.offset.toNat + j]? = some 0)
    (hfits : ∀ r ∈ relocs, r.kind = .abs64 → r.offset.toNat ≤ i → i < r.offset.toNat + 8 →
      r.Fits addr) :
    (fill base addr bytes (relocs.map Reloc.narrowed))[i]? = (fill base addr bytes relocs)[i]? := by
  -- the last field is seen where fields overlap, so it is taken off first
  induction relocs using List.reverseRecOn with
  | nil => rfl
  | append_singleton relocs r ih =>
    obtain ⟨hsorted, -, hlast⟩ := List.pairwise_append.mp hsorted
    have hmem : r ∈ relocs ++ [r] := by simp
    have hsame := ih hsorted (fun x hx => hzero x (by simp [hx])) fun x hx => hfits x (by simp [hx])
    rw [List.map_append, List.map_singleton, fill_concat, fill_concat, Reloc.offset_narrowed]
    by_cases hwide : r.kind = .abs64
    · obtain ⟨high, hstored, hhigh, hlow, hempty⟩ := r.stored_eq_append hwide base addr
      rw [hstored]
      by_cases houtside : i < r.offset.toNat ∨ r.offset.toNat + 8 ≤ i
      · rw [getElem?_store_of_outside (by omega), getElem?_store_of_outside
          (by rw [List.length_append]; omega), hsame]
      · obtain ⟨j, rfl⟩ := Nat.exists_eq_add_of_le (show r.offset.toNat ≤ i by omega)
        rw [getElem?_store_of_inside _ (_ ++ high) _ (by rw [List.length_append]; omega)]
        by_cases hj : j < 4
        · rw [getElem?_store_of_inside _ _ _ (by omega), List.getElem?_append_left (by omega), hsame]
        · -- what the narrowed field leaves alone no earlier field has reached
          have hbeyond : (fill base addr bytes (relocs.map Reloc.narrowed))[r.offset.toNat + j]? =
              some 0 := by
            rw [getElem?_fill_of_beyond, hzero r hmem hwide j (by omega) (by omega)]
            intro x hx
            obtain ⟨y, hy, rfl⟩ := List.mem_map.mp hx
            have hplace := hlast y hy r (List.mem_singleton_self r)
            have hlength := y.length_stored_narrowed_le base addr
            rw [Reloc.offset_narrowed]
            omega
          have hfit : r.Fits addr := hfits r hmem hwide (by omega) (by omega)
          rw [getElem?_store_of_outside (by omega), ← hsame, hbeyond, Option.bind_some,
            List.getElem?_append_right (by omega), hempty hfit,
            List.getElem?_replicate_of_lt (by omega)]
    · -- any other field is as wide as before
      rw [Reloc.narrowed_eq_self hwide]
      by_cases houtside : i < r.offset.toNat ∨ r.offset.toNat + (r.stored base addr).length ≤ i
      · rw [getElem?_store_of_outside houtside, getElem?_store_of_outside houtside, hsame]
      · obtain ⟨j, rfl⟩ := Nat.exists_eq_add_of_le (show r.offset.toNat ≤ i by omega)
        rw [getElem?_store_of_inside _ _ _ (by omega), getElem?_store_of_inside _ _ _ (by omega),
          hsame]

end Fill

/-- The bytes of a section at `base` after linking. -/
def Section.linked (base : Int) (addr : String → Int) (s : Section) : List UInt8 :=
  fill base addr s.data s.relocs

/-- A section whose relocations have fields of four bytes. -/
def Section.narrowed (s : Section) : Section :=
  { s with relocs := s.relocs.map Reloc.narrowed }

/-- An object whose relocations have fields of four bytes. -/
def Object.narrowed (obj : Object) : Object :=
  { obj with sections := obj.sections.map Section.narrowed }

end CodeEmission
