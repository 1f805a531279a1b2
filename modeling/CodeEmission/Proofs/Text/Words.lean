import CodeEmission.Text.Blank

/-!
# Texts Cut into Words

Blanks are cut off at the two ends of a text, and a text is cut where a separator stands. Words
without a separator that were joined are found again (`Text.splitOn_intercalate`,
`Text.splitOn_intercalate_pair`). A run of characters of one class ends where a character of another
one stands (`Text.takeWhile_run`).
-/

namespace CodeEmission.Text

/-- A text that neither starts nor ends with a blank has none to trim. -/
theorem trim_eq_self {s : String} (hfirst : ∀ c ∈ s.toList.head?, isBlank c = false)
    (hlast : ∀ c ∈ s.toList.getLast?, isBlank c = false) : trim s = s := by
  have hdrop {l : List Char} (h : ∀ c ∈ l.head?, isBlank c = false) : l.dropWhile isBlank = l := by
    cases l with
    | nil => rfl
    | cons c rest => exact List.dropWhile_cons_of_neg (by simp [h c rfl])
  rw [trim, hdrop hfirst, hdrop (by simpa using hlast), List.reverse_reverse, String.ofList_toList]

/-- A text between two words that neither start nor end with a blank has none to trim. -/
theorem trim_of_ends {s first last : String} {between : List Char}
    (hs : s.toList = first.toList ++ between ++ last.toList)
    (hfirst : ∃ c, first.toList.head? = some c ∧ isBlank c = false)
    (hlast : ∃ c, last.toList.getLast? = some c ∧ isBlank c = false) : trim s = s := by
  obtain ⟨a, ha, hblank⟩ := hfirst
  obtain ⟨z, hz, hblank'⟩ := hlast
  refine trim_eq_self (fun c hc => ?_) (fun c hc => ?_)
  · rw [hs, List.append_assoc, List.head?_append, ha] at hc
    exact Option.mem_some.mp hc ▸ hblank
  · rw [hs, List.getLast?_append, hz] at hc
    exact Option.mem_some.mp hc ▸ hblank'

/-- The parts between separators hold no separator. -/
theorem not_mem_of_mem_splitOn {α : Type} [DecidableEq α] {sep : α} {l part : List α}
    (h : part ∈ l.splitOn sep) : sep ∉ part := by
  induction l generalizing part with
  | nil =>
    rw [List.splitOn_nil, List.mem_singleton] at h
    simp [h]
  | cons a rest ih =>
    rw [List.splitOn_cons_eq_if_modifyHead] at h
    split at h
    next =>
      rcases List.mem_cons.mp h with rfl | h
      · exact List.not_mem_nil
      · exact ih h
    next ha =>
      -- the first part takes one more, which is no separator
      cases hparts : rest.splitOn sep with
      | nil => simp [hparts] at h
      | cons first parts =>
        rw [hparts, List.modifyHead_cons, List.mem_cons] at h
        rcases h with rfl | h
        · rw [List.mem_cons, not_or]
          exact ⟨fun hsep => ha (beq_iff_eq.mpr hsep.symm), ih (by simp [hparts])⟩
        · exact ih (by simp [hparts, h])

/-- Words that have no separator in them are the parts of the text that joins them. -/
theorem splitOn_intercalate {sep : String} {c : Char} {words : List String}
    (hsep : sep.toList = [c]) (hne : words ≠ []) (h : ∀ word ∈ words, c ∉ word.toList) :
    ((String.intercalate sep words).toList.splitOn c).map String.ofList = words := by
  have hparts : ∀ part ∈ words.map String.toList, c ∉ part := by simpa using h
  rw [String.toList_intercalate, hsep, List.splitOn_intercalate c hparts (by simpa using hne),
    List.map_map]
  simp [Function.comp_def]

/-- Joining with two characters is joining with the first alone, when the second stands in front of
every word but the first. -/
theorem intercalate_pair {α : Type} (a b : α) (word : List α) (words : List (List α)) :
    [a, b].intercalate (word :: words) = [a].intercalate (word :: words.map (b :: ·)) := by
  induction words generalizing word with
  | nil => simp
  | cons next rest ih => simp [ih]

/-- Where the separator is two characters and the words do not have the first, cutting at that one
gives the words, with the second in front of all but the first word. -/
theorem splitOn_intercalate_pair {sep word : String} {a b : Char} {words : List String}
    (hsep : sep.toList = [a, b]) (hne : a ≠ b) (h : ∀ w ∈ word :: words, a ∉ w.toList) :
    (String.intercalate sep (word :: words)).toList.splitOn a =
      word.toList :: words.map (b :: ·.toList) := by
  obtain ⟨hword, hwords⟩ := List.forall_mem_cons.mp h
  have hparts : ∀ part ∈ word.toList :: words.map (b :: ·.toList), a ∉ part := by
    simpa [hne] using And.intro hword hwords
  rw [String.toList_intercalate, hsep, List.map_cons, intercalate_pair, List.map_map]
  exact List.splitOn_intercalate a hparts (List.cons_ne_nil _ _)

/-- A run of characters of a class is read up to the first character that is of another one. -/
theorem takeWhile_run {isPart : Char → Bool} {run rest : List Char}
    (hrun : ∀ c ∈ run, isPart c = true) (hrest : ∀ c ∈ rest.head?, isPart c = false) :
    (run ++ rest).takeWhile isPart = run := by
  rw [List.takeWhile_append_of_pos hrun]
  cases rest with
  | nil => exact List.append_nil run
  | cons c rest => simp [hrest c rfl]

/-- What follows a run of characters of a class starts with a character of another one. -/
theorem dropWhile_run {isPart : Char → Bool} {run rest : List Char}
    (hrun : ∀ c ∈ run, isPart c = true) (hrest : ∀ c ∈ rest.head?, isPart c = false) :
    (run ++ rest).dropWhile isPart = rest := by
  rw [List.dropWhile_append_of_pos hrun]
  cases rest with
  | nil => rfl
  | cons c rest => simp [hrest c rfl]

end CodeEmission.Text
