import CodeEmission.Text.Composed

/-!
# Composition Loses No Text

Composed form may be shorter than the text it was made from, but it is empty only for the empty text
(`Text.composed_ne_empty`). So a name that is there is still there once it is composed.

Every segment of a text keeps at least one code point: a decomposition has one, ordering keeps all of
them, and composing replaces one that is kept already or keeps one more.
-/

namespace CodeEmission.Text

/-- What a search in a table finds stands in one of its rows. -/
theorem RangeTable.exists_row_of_search {α : Type} {t : RangeTable α} {n lo hi : Nat} {v : α}
    (h : t.search n lo hi = some v) : ∃ row ∈ t.rows, row.value = v := by
  fun_induction search with
  | case1 => cases h
  | case2 lo hi hlt mid row hrow hbelow ih => exact ih h
  | case3 lo hi hlt mid row hrow hbelow habove ih => exact ih h
  | case4 lo hi hlt mid row hrow hbelow habove =>
    exact ⟨row, Array.mem_of_getElem? hrow, Option.some.inj h⟩
  | case5 => cases h

/-- A character decomposes into at least one code point. -/
theorem decompose_ne_nil (n : Nat) : decompose n ≠ [] := by
  unfold decompose
  split
  · simp
  split
  · simp
  cases hfind : decompositionTable.find? n with
  | none => simp
  | some codes =>
    unfold PagedTable.find? at hfind
    split at hfind
    next page hpage =>
      obtain ⟨row, hrow, rfl⟩ := RangeTable.exists_row_of_search hfind
      obtain ⟨before, after, hpages, -⟩ := List.lookup_eq_some_iff.mp hpage
      have hmem : (n / 256, page) ∈ decompositionTable.pages := by simp [hpages]
      obtain ⟨⟨number, text⟩, -, hentry⟩ := List.mem_map.mp hmem
      obtain ⟨-, rfl⟩ := Prod.mk.inj hentry
      -- the code points of a row are cut at commas, and cutting leaves one part at least
      simp only [decompositionsOf, List.mem_toArray, List.mem_map] at hrow
      obtain ⟨entry, -, rfl⟩ := hrow
      simp [List.splitOn_ne_nil]
    next => cases hfind

theorem length_insertByClass (n : Nat) (done : List Nat) :
    (insertByClass n done).length = done.length + 1 := by
  induction done with
  | nil => rfl
  | cons last before ih =>
    unfold insertByClass
    split <;> simp [ih]

/-- Ordering keeps every code point of the decompositions. -/
theorem length_orderedDecomposition (segment : List Nat) :
    (orderedDecomposition segment).length = (segment.flatMap decompose).length := by
  have hfold : ∀ codes done : List Nat,
      (codes.foldl (fun done n => insertByClass n done) done).length =
        done.length + codes.length := by
    intro codes
    induction codes with
    | nil => simp
    | cons n rest ih =>
      intro done
      rw [List.foldl_cons, ih, length_insertByClass, List.length_cons]
      omega
  simp [orderedDecomposition, hfold]

/-- Taking in one more code point drops none of those that are done. -/
theorem Composing.length_le_push (s : Composing) (n : Nat) :
    s.done.length ≤ (s.push n).done.length := by
  have hjoin : ∀ (rule : Nat → Nat → Option Nat) (s : Composing),
      s.done.length ≤ (s.join rule n).done.length := by
    intro rule s
    simp only [join]
    split <;> simp [replaceAt]
  unfold push
  split
  · exact hjoin syllable? { s with hangul := true }
  · split
    · exact hjoin compose? s
    · simp

theorem composeSegment_ne_nil {codes : List Nat} (h : codes ≠ []) : composeSegment codes ≠ [] := by
  have hfold : ∀ (rest : List Nat) (s : Composing),
      s.done.length ≤ (rest.foldl Composing.push s).done.length := by
    intro rest
    induction rest with
    | nil => simp
    | cons n rest ih => exact fun s => Nat.le_trans (s.length_le_push n) (ih (s.push n))
  cases codes with
  | nil => exact absurd rfl h
  | cons first rest =>
    have hlength := hfold rest { done := [first] }
    intro hnil
    rw [composeSegment, List.reverse_eq_nil_iff] at hnil
    simp [hnil] at hlength

/-- A segment that is not empty is not empty in composed form. -/
theorem normalSegment_ne_nil {segment : List Nat} (h : segment ≠ []) (joiner : Bool) :
    normalSegment segment joiner ≠ [] := by
  obtain ⟨n, rest, rfl⟩ := List.exists_cons_of_ne_nil h
  have hordered : orderedDecomposition (n :: rest) ≠ [] := by
    refine List.ne_nil_of_length_pos ?_
    have hfirst := List.length_pos_iff.mpr (decompose_ne_nil n)
    rw [length_orderedDecomposition, List.flatMap_cons, List.length_append]
    omega
  simp [normalSegment, composeSegment_ne_nil hordered]

/-- A text, or what is open of it, has a segment that is not empty. -/
theorem exists_segment_ne_nil {codes open_ : List Nat} {count : Nat}
    (h : open_ ≠ [] ∨ codes ≠ []) : ∃ part ∈ segmentsFrom open_ count codes, part.1 ≠ [] := by
  induction codes generalizing open_ count with
  | nil =>
    have hopen : open_ ≠ [] := by simpa using h
    exact ⟨(open_.reverse, false), by simp [segmentsFrom, hopen], by simpa using hopen⟩
  | cons n rest ih =>
    -- the segment that holds `n` is still open after it, so the rest has a segment
    simp only [segmentsFrom]
    split
    · obtain ⟨part, hpart, hne⟩ := @ih [n] (nonStarters n).2 (by simp)
      refine ⟨part, ?_, hne⟩
      split
      · exact hpart
      · exact List.mem_cons_of_mem _ hpart
    · split
      · obtain ⟨part, hpart, hne⟩ := @ih [n] (nonStarters n).1 (by simp)
        exact ⟨part, List.mem_cons_of_mem _ hpart, hne⟩
      · exact ih (by simp)

/-- A text that is not empty is not empty in composed form. -/
theorem composed_ne_empty {s : String} (h : s ≠ "") : composed s ≠ "" := by
  unfold composed
  split
  · exact h
  · have hcodes : s.toList.map Char.toNat ≠ [] := by simpa using h
    obtain ⟨⟨segment, joiner⟩, hpart, hne⟩ :=
      @exists_segment_ne_nil _ [] 0 (.inr hcodes)
    intro hempty
    have hnil := congrArg String.toList hempty
    simp only [String.toList_ofList, String.toList_empty, List.map_eq_nil_iff,
      List.flatMap_eq_nil_iff] at hnil
    exact normalSegment_ne_nil hne joiner (hnil (segment, joiner) hpart)

end CodeEmission.Text
