import CodeEmission.Proofs.Object.Container
import Mathlib.Data.String.Basic

/-!
# The Order of Bytes

Texts are compared character by character, and so are their bytes. The two orders are one: a
character that comes before another has bytes that come before the other's, and none of the two runs
of bytes begins with the other (`encode_append_lt`). Hence a list of texts that is sorted is sorted
by bytes (`pairwise_bytesOfText_mergeSort`).
-/

namespace CodeEmission.Text

theorem bytesOfText_eq_flatMap (s : String) :
    bytesOfText s = s.toList.flatMap String.utf8EncodeChar := by
  conv => lhs; rw [← String.ofList_toList (s := s)]
  rw [bytesOfText, String.toUTF8_eq_toByteArray, String.toByteArray_ofList,
    Unpack.byteArray_toList, List.utf8Encode, List.data_toByteArray]

/-- The bytes of a character come before those of a later one, whatever follows them. -/
theorem encode_append_lt {c d : Char} (h : c < d) (x y : List UInt8) :
    String.utf8EncodeChar c ++ x < String.utf8EncodeChar d ++ y := by
  have hlt : c.val.toNat < d.val.toNat := UInt32.lt_iff_toNat_lt.mp (Char.lt_def.mp h)
  have hbound : d.val.toNat < 0x110000 := by
    rcases d.valid with hd | hd <;> omega
  -- a longer encoding has a larger first byte; for equal lengths the first difference decides
  unfold String.utf8EncodeChar
  dsimp only
  split_ifs <;>
    simp only [List.cons_append, List.nil_append, List.cons_lt_cons_iff, UInt8.lt_iff_toNat_lt,
      ← UInt8.toNat_inj, UInt8.toNat_ofNat', Nat.reducePow] <;>
    simp (disch := omega) only [Nat.mod_eq_of_lt] <;>
    omega

theorem flatMap_encode_lt {cs ds : List Char} (h : cs < ds) :
    cs.flatMap String.utf8EncodeChar < ds.flatMap String.utf8EncodeChar := by
  induction cs generalizing ds with
  | nil =>
    cases ds with
    | nil => cases h
    | cons d rest =>
      rw [List.flatMap_cons, List.flatMap_nil]
      cases hbytes : String.utf8EncodeChar d ++ rest.flatMap String.utf8EncodeChar with
      | nil => simp at hbytes
      | cons b later => exact List.nil_lt_cons b later
  | cons c cs ih =>
    cases ds with
    | nil => cases h
    | cons d ds =>
      rw [List.flatMap_cons, List.flatMap_cons]
      rcases List.cons_lt_cons_iff.mp h with hlt | ⟨rfl, hrest⟩
      · exact encode_append_lt hlt _ _
      · exact List.append_left_lt (ih hrest)

/-- A text comes before another exactly when its bytes do. -/
theorem bytesOfText_lt_iff {s t : String} : bytesOfText s < bytesOfText t ↔ s < t := by
  simp only [bytesOfText_eq_flatMap, String.lt_iff_toList_lt]
  refine ⟨fun h => ?_, flatMap_encode_lt⟩
  rcases lt_trichotomy s.toList t.toList with hlt | heq | hgt
  · exact hlt
  · rw [heq] at h
    exact absurd h (List.lt_irrefl _)
  · exact absurd h (List.lt_asymm (flatMap_encode_lt hgt))

theorem bytesOfText_le_iff {s t : String} : bytesOfText s ≤ bytesOfText t ↔ s ≤ t :=
  not_congr bytesOfText_lt_iff

/-- Sorted texts stand in the order of their bytes. -/
theorem pairwise_bytesOfText_mergeSort (texts : List String) :
    (texts.mergeSort fun a b => decide (a ≤ b)).Pairwise
      fun a b => bytesOfText a ≤ bytesOfText b := by
  have hsorted : (texts.mergeSort fun a b => decide (a ≤ b)).Pairwise
      fun a b => decide (a ≤ b) = true :=
    List.pairwise_mergeSort (fun a b c => by simpa using le_trans)
      (fun a b => by simpa using le_total a b) texts
  exact hsorted.imp fun h => bytesOfText_le_iff.mpr (of_decide_eq_true h)

end CodeEmission.Text
