import Mathlib.Data.List.DropRight
import CodeEmission.Trace.Ring

/-!
# A Ring Holds the Newest Entries

The slots of a ring wrap around. `Ring.Valid` is what holds of them, `Ring.toList_push` is what an
entry does to the view of a ring as a list, and `Ring.Holds` relates a ring to all the entries that
were ever put into it: it shows the newest of them.
-/

namespace CodeEmission.Trace.Ring

variable {α : Type} {r : Ring α}

/-- What is true of the slots: there are never too many, and the oldest entry stands first until the
ring is full. -/
structure Valid (r : Ring α) : Prop where
  size_le : r.slots.size ≤ r.capacity
  head_lt : r.head < r.capacity
  head_eq : r.slots.size < r.capacity → r.head = 0

theorem capacity_pos (requested : Int64) : 0 < (ofRequest requested : Ring α).capacity := by
  unfold ofRequest
  dsimp only
  split
  · decide
  next hpos =>
    have hlt : 0 < requested.toInt := by simpa [Int64.le_iff_toInt_le] using hpos
    omega

theorem valid_ofRequest (requested : Int64) : (ofRequest requested : Ring α).Valid where
  size_le := Nat.zero_le _
  head_lt := capacity_pos requested
  head_eq := fun _ => rfl

@[simp]
theorem capacity_push (r : Ring α) (a : α) : (r.push a).capacity = r.capacity := by
  unfold push
  split <;> rfl

theorem Valid.push (hr : r.Valid) (a : α) : (r.push a).Valid := by
  have hhead := hr.head_lt
  unfold Ring.push
  split
  next hroom =>
    exact ⟨by simpa using Nat.succ_le_of_lt hroom, hhead, fun _ => hr.head_eq hroom⟩
  next hfull =>
    refine ⟨by simpa using hr.size_le, Nat.mod_lt _ (by omega), fun hlt => ?_⟩
    simp only [Array.size_setIfInBounds] at hlt
    exact absurd hlt hfull

/-- Putting an entry over the oldest one and moving on makes it the newest. The slots are cut at the
oldest entry. -/
theorem rotate_after_set {slots front back : List α} {x a : α} (h : slots = front ++ x :: back) :
    (slots.set front.length a).drop ((front.length + 1) % slots.length) ++
        (slots.set front.length a).take ((front.length + 1) % slots.length) =
      back ++ front ++ [a] := by
  subst h
  rw [List.set_append_right _ _ (Nat.le_refl _), Nat.sub_self, List.set_cons_zero]
  cases back with
  | nil => simp
  | cons y rest =>
    have hlt : front.length + 1 < (front ++ x :: y :: rest).length := by simp
    rw [Nat.mod_eq_of_lt hlt]
    simp [List.drop_append, List.take_append, List.drop_of_length_le (Nat.le_succ front.length),
      List.take_of_length_le (Nat.le_succ front.length)]

/-- A new entry is the last one; a full ring loses its first. -/
theorem toList_push (hr : r.Valid) (a : α) :
    (r.push a).toList = (r.toList ++ [a]).rtake r.capacity := by
  obtain ⟨hsize, hhead, hzero⟩ := hr
  have hlength : r.slots.toList.length = r.slots.size := Array.length_toList
  unfold push
  split
  next hroom =>
    -- there is room, so the entries stand in order and nothing is lost
    have hnone : (r.toList ++ [a]).length - r.capacity = 0 := by
      simp [toList, hzero hroom]
      omega
    rw [List.rtake, hnone, List.drop_zero]
    simp [toList, hzero hroom]
  next hfull =>
    have hcapacity : r.slots.toList.length = r.capacity := by omega
    have hlt : r.head < r.slots.toList.length := by omega
    have hone : (r.toList ++ [a]).length - r.capacity = 1 := by
      simp [toList]
      omega
    have hcut := List.take_append_drop r.head r.slots.toList
    rw [List.drop_eq_getElem_cons hlt] at hcut
    have hrotate := rotate_after_set (a := a) hcut.symm
    rw [List.length_take_of_le hlt.le, hcapacity] at hrotate
    rw [List.rtake, hone]
    simp only [toList, Array.toList_setIfInBounds]
    rw [hrotate, List.drop_eq_getElem_cons hlt]
    rfl

/-! ## All entries -/

/-- A ring shows the newest of the entries that were put into it, the oldest first. -/
structure Holds (r : Ring α) (entries : List α) : Prop where
  valid : r.Valid
  toList_eq : r.toList = entries.rtake r.capacity

theorem holds_ofRequest (requested : Int64) : (ofRequest requested : Ring α).Holds [] where
  valid := valid_ofRequest requested
  toList_eq := by simp [ofRequest, toList]

theorem Holds.push {entries : List α} (h : r.Holds entries) (a : α) :
    (r.push a).Holds (entries ++ [a]) := by
  refine ⟨h.valid.push a, ?_⟩
  obtain ⟨n, hn⟩ :=
    Nat.exists_eq_add_one_of_ne_zero (Nat.ne_of_gt (Nat.zero_lt_of_lt h.valid.head_lt))
  rw [toList_push h.valid, capacity_push, h.toList_eq, hn, List.rtake_concat_succ,
    List.rtake_concat_succ]
  simp [List.rtake_eq_reverse_take_reverse, List.take_take]

/-- Changing every entry in its place changes what was put in alike. -/
theorem Holds.map {entries : List α} (h : r.Holds entries) (f : α → α) :
    (r.map f).Holds (entries.map f) := by
  obtain ⟨⟨hsize, hhead, hzero⟩, hlist⟩ := h
  refine ⟨⟨by simpa [Ring.map] using hsize, hhead, by simpa [Ring.map] using hzero⟩, ?_⟩
  have htoList : (r.map f).toList = r.toList.map f := by
    simp [Ring.map, toList]
  rw [htoList, hlist]
  simp [Ring.map, List.rtake, List.map_drop]

end CodeEmission.Trace.Ring
