import CodeEmission.Proofs.Object.Placement
import Mathlib.Algebra.Group.Nat.Defs

/-!
# Sections Made of Pieces

A section holds pieces, each a run of bytes at a place, with fill bytes between them.

* `Laid fill loc pieces bytes`: the bytes from offset `loc` on are the pieces in order, each at a
  multiple of its alignment, with fewer fill bytes before it than the alignment has.
* `Chunk.Lays`: the same of the bytes of a chunk, whose own alignment is a power of two and a
  multiple of every piece's. Chunks that are joined lay the pieces of both (`Chunk.Lays.append`), and
  the chunk of a list lays those of its members (`Chunk.lays_of_concat`).
* `Section.Holds`: what can be read off such bytes at the end, place by place.
-/

namespace CodeEmission

/-- A run of bytes of a section. -/
structure Piece where
  /-- The name of the symbol that stands for it. -/
  name : String
  /-- Where it starts. -/
  start : Nat
  /-- The alignment that was asked for; one or less asks for nothing. -/
  align : Nat
  /-- Its bytes. -/
  bytes : List UInt8
  deriving DecidableEq, Repr

/-- Where a piece ends. -/
def Piece.stop (q : Piece) : Nat :=
  q.start + q.bytes.length

/-- Bytes from an offset on are pieces in order with fill bytes before them. -/
inductive Laid (fill : UInt8) : Nat → List Piece → List UInt8 → Prop where
  | nil (loc : Nat) : Laid fill loc [] []
  | cons {loc gap : Nat} {q : Piece} {pieces : List Piece} {bytes : List UInt8}
      (hstart : q.start = loc + gap) (haligned : max 1 q.align ∣ q.start)
      (hgap : gap < max 1 q.align) (hrest : Laid fill q.stop pieces bytes) :
      Laid fill loc (q :: pieces) (List.replicate gap fill ++ (q.bytes ++ bytes))

namespace Laid

variable {fill : UInt8} {loc : Nat} {pieces : List Piece} {bytes : List UInt8}

/-- Pieces that follow others are laid after them. -/
theorem append {pieces' : List Piece} {bytes' : List UInt8} (h : Laid fill loc pieces bytes)
    (h' : Laid fill (loc + bytes.length) pieces' bytes') :
    Laid fill loc (pieces ++ pieces') (bytes ++ bytes') := by
  induction h with
  | nil => exact h'
  | @cons loc gap q pieces bytes hstart haligned hgap _ ih =>
    rw [List.append_assoc, List.append_assoc]
    refine cons hstart haligned hgap (ih ?_)
    have hend : q.stop + bytes.length =
        loc + (List.replicate gap fill ++ (q.bytes ++ bytes)).length := by
      rw [Piece.stop, List.length_append, List.length_append, List.length_replicate]
      omega
    rwa [hend]

/-- Every piece lies between the offset and the end of the bytes. -/
theorem bounds (h : Laid fill loc pieces bytes) :
    ∀ q ∈ pieces, loc ≤ q.start ∧ q.stop ≤ loc + bytes.length := by
  induction h with
  | nil => nofun
  | @cons loc gap q pieces bytes hstart _ _ _ ih =>
    simp only [List.length_append, List.length_replicate]
    simp only [Piece.stop] at ih ⊢
    refine List.forall_mem_cons.mpr ⟨by omega, fun r hr => ?_⟩
    have hlater := ih r hr
    omega

theorem ordered (h : Laid fill loc pieces bytes) :
    pieces.Pairwise fun q r => q.stop ≤ r.start := by
  induction h with
  | nil => exact .nil
  | cons _ _ _ hrest ih => exact .cons (fun r hr => (hrest.bounds r hr).1) ih

theorem aligned (h : Laid fill loc pieces bytes) : ∀ q ∈ pieces, max 1 q.align ∣ q.start := by
  induction h with
  | nil => nofun
  | cons _ haligned _ _ ih => exact List.forall_mem_cons.mpr ⟨haligned, ih⟩

/-- Fewer fill bytes stand before a piece than its alignment has. -/
theorem gap (h : Laid fill loc pieces bytes) {before after : List Piece} {q : Piece}
    (hsplit : pieces = before ++ q :: after) :
    q.start - before.getLast?.elim loc Piece.stop < max 1 q.align := by
  induction h generalizing before with
  | nil => simp at hsplit
  | @cons loc gap r pieces bytes hstart _ hgap _ ih =>
    cases before with
    | nil =>
      obtain ⟨rfl, -⟩ := List.cons.inj hsplit
      show r.start - loc < max 1 r.align
      omega
    | cons r' before =>
      obtain ⟨rfl, hpieces⟩ := List.cons.inj hsplit
      -- the piece before is the last of those before, or the one that was just laid
      have hlast : (r :: before).getLast?.elim loc Piece.stop =
          before.getLast?.elim r.stop Piece.stop := by
        cases before with
        | nil => rfl
        | cons s before =>
          rw [List.getLast?_cons_cons, List.getLast?_cons]
          rfl
      rw [hlast]
      exact ih hpieces

/-- The bytes of a piece stand at its place. -/
theorem contents (h : Laid fill loc pieces bytes) :
    ∀ q ∈ pieces, (bytes.drop (q.start - loc)).take q.bytes.length = q.bytes := by
  induction h with
  | nil => nofun
  | @cons loc gap q pieces bytes hstart _ _ hrest ih =>
    refine List.forall_mem_cons.mpr ⟨?_, fun r hr => ?_⟩
    · have hplace : q.start - loc = (List.replicate gap fill).length := by
        rw [List.length_replicate]
        omega
      rw [hplace, List.drop_left, List.take_left]
    · have hle := (hrest.bounds r hr).1
      have hplace : r.start - loc =
          (List.replicate gap fill ++ q.bytes).length + (r.start - q.stop) := by
        rw [Piece.stop] at hle ⊢
        rw [List.length_append, List.length_replicate]
        omega
      rw [hplace, ← List.append_assoc, ← List.drop_drop, List.drop_left]
      exact ih r hr

/-- A byte that lies in no piece is a fill byte. -/
theorem rest (h : Laid fill loc pieces bytes) {i : Nat} {b : UInt8} (hb : bytes[i]? = some b) :
    (∃ q ∈ pieces, q.start ≤ loc + i ∧ loc + i < q.stop) ∨ b = fill := by
  induction h generalizing i with
  | nil => simp at hb
  | @cons loc gap q pieces bytes hstart _ _ _ ih =>
    rw [List.getElem?_append, List.length_replicate] at hb
    split at hb
    next hfill =>
      rw [List.getElem?_replicate, if_pos hfill] at hb
      exact .inr (Option.some.inj hb).symm
    next hpast =>
      rw [List.getElem?_append] at hb
      split at hb
      next hin =>
        refine .inl ⟨q, List.mem_cons_self, by omega, ?_⟩
        rw [Piece.stop]
        omega
      next hout =>
        have hplace : q.stop + (i - gap - q.bytes.length) = loc + i := by
          rw [Piece.stop]
          omega
        rcases ih hb with ⟨r, hr, hin⟩ | hfill
        · rw [hplace] at hin
          exact .inl ⟨r, List.mem_cons_of_mem q hr, hin⟩
        · exact .inr hfill

end Laid

/-- A piece after its fill bytes is laid where these bring it. -/
theorem Laid.padded {q : Piece} {loc : Nat} (fill : UInt8) (hstart : q.start = alignUp q.align loc) :
    Laid fill loc [q] (padding q.align loc fill ++ q.bytes) := by
  obtain ⟨gap, hgap, hfill⟩ : ∃ gap < max 1 q.align,
      padding q.align loc fill = List.replicate gap fill := by
    unfold padding
    split
    next hle => exact ⟨0, by omega, rfl⟩
    next hgt =>
      have hlt := Nat.mod_lt (q.align - loc % q.align) (show q.align > 0 by omega)
      exact ⟨_, by omega, rfl⟩
  have hplace : q.start = loc + gap := by
    rw [hstart, ← add_length_padding q.align loc fill, hfill, List.length_replicate]
  have haligned : max 1 q.align ∣ q.start := by
    rcases Nat.eq_zero_or_pos q.align with hzero | hpos
    · rw [hzero]
      exact Nat.one_dvd _
    · rw [Nat.max_eq_right hpos, hstart, ← add_length_padding q.align loc fill]
      exact dvd_add_length_padding hpos loc fill
  have hlaid : Laid fill loc [q] _ := .cons hplace haligned hgap (.nil q.stop)
  rwa [List.append_nil, ← hfill] at hlaid

/-- A section holds pieces in order and fill bytes elsewhere. -/
structure Section.Holds (s : Section) (fill : UInt8) (pieces : List Piece) : Prop where
  /-- Every piece starts at a multiple of its alignment. -/
  aligned : ∀ q ∈ pieces, 1 < q.align → q.align ∣ q.start
  /-- The pieces stand in order and do not overlap. -/
  ordered : pieces.Pairwise fun q r => q.stop ≤ r.start
  /-- They lie in the section. -/
  inside : ∀ q ∈ pieces, q.stop ≤ s.data.length
  /-- The bytes of a piece are those of the section at its place. -/
  contents : ∀ q ∈ pieces, (s.data.drop q.start).take q.bytes.length = q.bytes
  /-- All other bytes of the section are fill bytes. -/
  rest : ∀ i b, s.data[i]? = some b → (∃ q ∈ pieces, q.start ≤ i ∧ i < q.stop) ∨ b = fill
  /-- Between the end of the piece before, or the start of the section, and a piece there are fewer
  bytes than its alignment has. -/
  gap : ∀ before q after, pieces = before ++ q :: after →
    q.start - before.getLast?.elim 0 Piece.stop < max 1 q.align
  /-- The alignment of the section is a multiple of that of every piece. -/
  align : ∀ q ∈ pieces, 1 < q.align → q.align ∣ s.align.toNat

/-- A chunk at an offset lays pieces, and its alignment is a power of two below a word's bound and
a multiple of every piece's. -/
structure Chunk.Lays (fill : UInt8) (loc : Nat) (pieces : List Piece) (c : Chunk) : Prop where
  /-- The bytes are the pieces with fill bytes before them. -/
  laid : Laid fill loc pieces c.bytes
  /-- The alignment is a power of two. -/
  power : ∃ k < 32, c.align = 2 ^ k
  /-- The alignment is a multiple of that of every piece. -/
  align : ∀ q ∈ pieces, max 1 q.align ∣ c.align

namespace Chunk

variable {fill : UInt8} {loc : Nat} {pieces : List Piece} {a b c : Chunk}

theorem Lays.nil (loc : Nat) (hbytes : c.bytes = []) (halign : c.align = 1) :
    c.Lays fill loc [] := by
  refine ⟨?_, ⟨0, by decide, halign⟩, nofun⟩
  rw [hbytes]
  exact .nil loc

/-- A chunk that is one piece after its fill bytes lays this piece. -/
theorem Lays.piece {q : Piece} (hstart : q.start = alignUp q.align loc)
    (hpower : ∃ k < 32, max 1 q.align = 2 ^ k)
    (hbytes : c.bytes = padding q.align loc fill ++ q.bytes) (halign : c.align = max 1 q.align) :
    c.Lays fill loc [q] := by
  refine ⟨?_, ?_, List.forall_mem_singleton.mpr ?_⟩
  · rw [hbytes]
    exact .padded fill hstart
  · rw [halign]
    exact hpower
  · exact halign ▸ Nat.dvd_refl c.align

/-- Of two powers of two the larger is a multiple of both. -/
theorem dvd_max_of_power {m n : Nat} (hm : ∃ k < 32, m = 2 ^ k) (hn : ∃ k < 32, n = 2 ^ k) :
    m ∣ max m n ∧ n ∣ max m n ∧ ∃ k < 32, max m n = 2 ^ k := by
  obtain ⟨j, hj, rfl⟩ := hm
  obtain ⟨k, hk, rfl⟩ := hn
  rcases Nat.le_total j k with hle | hle
  · have hpow : 2 ^ j ≤ 2 ^ k := Nat.pow_le_pow_right (by decide) hle
    rw [Nat.max_eq_right hpow]
    exact ⟨Nat.pow_dvd_pow 2 hle, Nat.dvd_refl _, k, hk, rfl⟩
  · have hpow : 2 ^ k ≤ 2 ^ j := Nat.pow_le_pow_right (by decide) hle
    rw [Nat.max_eq_left hpow]
    exact ⟨Nat.dvd_refl _, Nat.pow_dvd_pow 2 hle, j, hj, rfl⟩

/-- Joined chunks lay the pieces of both. -/
theorem Lays.append {pieces' : List Piece} (ha : a.Lays fill loc pieces)
    (hb : b.Lays fill (loc + a.bytes.length) pieces') :
    (a.append b).Lays fill loc (pieces ++ pieces') := by
  obtain ⟨hdvd, hdvd', hpower⟩ := dvd_max_of_power ha.power hb.power
  refine ⟨ha.laid.append hb.laid, hpower, List.forall_mem_append.mpr ⟨?_, ?_⟩⟩
  · exact fun q hq => Nat.dvd_trans (ha.align q hq) hdvd
  · exact fun q hq => Nat.dvd_trans (hb.align q hq) hdvd'

/-- The chunk of a list lays the pieces of its members, each from the place of the member on. -/
theorem lays_of_concat {α ε : Type} {f : Nat → α → Except ε Chunk} {next : Nat → α → Nat}
    {place : Nat → α → List Piece} {as : List α}
    (hmember : ∀ loc, ∀ x ∈ as, ∀ piece, f loc x = .ok piece →
      piece.Lays fill loc (place loc x) ∧ loc + piece.bytes.length = next loc x)
    (h : concat f loc as = .ok c) :
    c.Lays fill loc ((placedFrom next loc as).flatMap fun (loc, x) => place loc x) :=
  concat_induction_placed (R := fun loc c pieces => c.Lays fill loc pieces)
    (fun loc => .nil loc rfl rfl) (fun _ _ _ _ _ => Lays.append) hmember h

/-- A chunk that lays pieces from the start fills a section that holds them. -/
theorem Lays.holds (h : c.Lays fill 0 pieces) (name : String) :
    (Object.sectionOf name c).Holds fill pieces := by
  have hword : (UInt32.ofNat c.align).toNat = c.align := by
    obtain ⟨k, hk, hpower⟩ := h.power
    refine UInt32.toNat_ofNat_of_lt' ?_
    rw [hpower]
    exact Nat.pow_lt_pow_right (by decide) hk
  have hbig : ∀ {n : Nat}, 1 < n → max 1 n = n := fun hn => Nat.max_eq_right (Nat.le_of_lt hn)
  constructor
  case aligned =>
    intro q hq hone
    rw [← hbig hone]
    exact h.laid.aligned q hq
  case ordered => exact h.laid.ordered
  case inside =>
    intro q hq
    have hin := (h.laid.bounds q hq).2
    rwa [Nat.zero_add] at hin
  case contents => exact h.laid.contents
  case rest =>
    intro i b hb
    have hrest := h.laid.rest hb
    rwa [Nat.zero_add] at hrest
  case gap => exact fun before q after => h.laid.gap
  case align =>
    intro q hq hone
    rw [Object.sectionOf, hword, ← hbig hone]
    exact h.align q hq

end Chunk

end CodeEmission
