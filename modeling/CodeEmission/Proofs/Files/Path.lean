import CodeEmission.Files.Path
import CodeEmission.Proofs.Text.Words
import Mathlib.Logic.Function.Iterate

/-!
# Clean Paths

A clean path is determined by whether it starts at the root and by the components that cleaning
keeps. This module reads paths as such pairs.

* `IsKept`: the lists of components, innermost first, that cleaning can leave.
* `kept_ofKept`: the components of a clean path are read back from it, so that two clean paths with
  the same root and components are one, and no others (`ofKept_inj`).
* `dir_ofKept_cons`, `base_ofKept_cons` and `join_eq`: directory, last component and join in terms
  of the components.
* `exists_suffix_of_mem_leading`: the leading parts of a clean path.
* `ancestors_ofKept_cons` and `iterate_dir_ofKept`: the directories above a path from the root, and
  what going up leaves.
* `dir_cases`: the directory of any path.
-/

namespace CodeEmission.Path

/-- The name of a file or of a directory, and not one of the components that lead nowhere or up. -/
structure IsName (piece : String) : Prop where
  ne_empty : piece ≠ ""
  ne_dot : piece ≠ "."
  ne_up : piece ≠ ".."
  no_slash : '/' ∉ piece.toList

/-- The components that cleaning keeps of a path, the innermost first. -/
def kept (path : String) : List String :=
  (pieces path).foldl (push (isRooted path)) []

/-- The path of kept components. -/
def ofKept (rooted : Bool) (names : List String) : String :=
  let body := String.intercalate "/" names.reverse
  if rooted then "/" ++ body else if body = "" then "." else body

theorem clean_eq (path : String) : clean path = ofKept (isRooted path) (kept path) := rfl

/-- What cleaning can keep: names, and outside of them the way up, of which there is none from the
root. -/
inductive IsKept (rooted : Bool) : List String → Prop where
  | nil : IsKept rooted []
  | name {name : String} {names : List String} (hname : IsName name)
    (hnames : IsKept rooted names) : IsKept rooted (name :: names)
  | up {names : List String} (hrooted : rooted = false) (hnames : ∀ n ∈ names, n = "..") :
    IsKept rooted (".." :: names)

/-! ## Components -/

/-- Components have no slash. -/
theorem no_slash_of_mem_pieces {path piece : String} (h : piece ∈ pieces path) :
    '/' ∉ piece.toList := by
  obtain ⟨part, hpart, rfl⟩ := List.mem_map.mp h
  rw [String.toList_ofList]
  exact Text.not_mem_of_mem_splitOn hpart

theorem pieces_append_slash (a b : String) : pieces (a ++ "/" ++ b) = pieces a ++ pieces b := by
  have hchars : (a ++ "/" ++ b).toList = a.toList ++ '/' :: b.toList := by simp
  rw [pieces, hchars, List.splitOn_append_cons_self, List.map_append]
  rfl

theorem pieces_eq_singleton {piece : String} (h : '/' ∉ piece.toList) : pieces piece = [piece] := by
  rw [pieces, List.splitOn_eq_singleton h]
  simp

theorem pieces_intercalate {names : List String} (hne : names ≠ [])
    (h : ∀ n ∈ names, '/' ∉ n.toList) : pieces (String.intercalate "/" names) = names :=
  Text.splitOn_intercalate rfl hne h

/-- What stands at the front of a path decides whether it starts at the root. -/
theorem isRooted_append {a : String} (ha : a ≠ "") (b : String) :
    isRooted (a ++ b) = isRooted a := by
  have hne : a.toList ≠ [] := fun h => ha (String.toList_eq_nil_iff.mp h)
  obtain ⟨c, cs, hcs⟩ := List.exists_cons_of_ne_nil hne
  simp [isRooted, hcs]

/-! ## What cleaning keeps -/

namespace IsKept

variable {rooted : Bool} {names : List String} {piece : String}

theorem no_slash (h : IsKept rooted names) : ∀ n ∈ names, '/' ∉ n.toList := by
  induction h with
  | nil => simp
  | name hname _ ih => simpa using ⟨hname.no_slash, ih⟩
  | up _ hnames =>
    intro n hn
    rcases List.mem_cons.mp hn with rfl | hn
    · decide
    · rw [hnames n hn]
      decide

theorem ne_empty (h : IsKept rooted names) : ∀ n ∈ names, n ≠ "" := by
  induction h with
  | nil => simp
  | name hname _ ih => simpa using ⟨hname.ne_empty, ih⟩
  | up _ hnames =>
    intro n hn
    rcases List.mem_cons.mp hn with rfl | hn
    · decide
    · rw [hnames n hn]
      decide

/-- The components outside of a kept one are kept as well. -/
theorem tail {first : String} (h : IsKept rooted (first :: names)) : IsKept rooted names := by
  cases h with
  | name _ hnames => exact hnames
  | up hrooted hnames =>
    induction names with
    | nil => exact .nil
    | cons n rest _ =>
      rw [hnames n List.mem_cons_self]
      exact .up hrooted fun m hm => hnames m (List.mem_cons_of_mem _ hm)

theorem of_suffix {outer : List String} (h : IsKept rooted names) (hsuffix : outer <:+ names) :
    IsKept rooted outer := by
  obtain ⟨inner, rfl⟩ := hsuffix
  induction inner with
  | nil => exact h
  | cons _ rest ih => exact ih h.tail

/-- One more component leaves a list that cleaning can leave. -/
theorem push (h : IsKept rooted names) (hpiece : '/' ∉ piece.toList) :
    IsKept rooted (Path.push rooted names piece) := by
  unfold Path.push
  split
  · exact h
  next hskip =>
    obtain ⟨hempty, hdot⟩ := not_or.mp hskip
    split
    next hup =>
      -- a name is left again, and from the way up it goes further up
      cases h with
      | nil =>
        cases rooted with
        | true => exact .nil
        | false => exact .up rfl (by simp)
      | name hname hnames => simpa [hname.ne_up] using hnames
      | up hrooted hnames =>
        refine .up hrooted fun n hn => ?_
        rcases List.mem_cons.mp hn with rfl | hn
        · rfl
        · exact hnames n hn
    next hup => exact .name ⟨hempty, hdot, hup, hpiece⟩ h

/-- Adding the kept components one by one gives them back. -/
theorem foldl_push_reverse (h : IsKept rooted names) :
    names.reverse.foldl (Path.push rooted) [] = names := by
  induction names with
  | nil => rfl
  | cons first rest ih =>
    rw [List.reverse_cons, List.foldl_append, ih h.tail, List.foldl_cons, List.foldl_nil]
    cases h with
    | name hname _ => simp [Path.push, hname.ne_empty, hname.ne_dot, hname.ne_up]
    | up hrooted hnames =>
      cases rest with
      | nil => simp [Path.push, hrooted]
      | cons n _ => simp [Path.push, hnames n List.mem_cons_self]

end IsKept

theorem foldl_push_isKept {rooted : Bool} {names : List String} (h : IsKept rooted names)
    {parts : List String} (hparts : ∀ part ∈ parts, '/' ∉ part.toList) :
    IsKept rooted (parts.foldl (push rooted) names) := by
  induction parts generalizing names with
  | nil => exact h
  | cons part rest ih =>
    exact ih (h.push (hparts part List.mem_cons_self))
      fun other hother => hparts other (List.mem_cons_of_mem _ hother)

theorem isKept_kept (path : String) : IsKept (isRooted path) (kept path) :=
  foldl_push_isKept .nil fun _ => no_slash_of_mem_pieces

/-! ## Clean paths and their components -/

section

variable {rooted rooted' : Bool} {names names' : List String} {first : String}

theorem pieces_body (h : IsKept rooted names) (hne : names ≠ []) :
    pieces (String.intercalate "/" names.reverse) = names.reverse :=
  pieces_intercalate (by simpa using hne) fun n hn => h.no_slash n (List.mem_reverse.mp hn)

theorem body_ne_empty (h : IsKept rooted names) (hne : names ≠ []) :
    String.intercalate "/" names.reverse ≠ "" := by
  intro hempty
  have hpieces := pieces_body h hne
  rw [hempty] at hpieces
  have hmem : "" ∈ names := List.mem_reverse.mp (hpieces ▸ List.mem_singleton.mpr rfl)
  exact h.ne_empty "" hmem rfl

/-- The components of a path from the root begin with an empty one. -/
theorem pieces_slash_append (path : String) : pieces ("/" ++ path) = "" :: pieces path := by
  have hsplit := pieces_append_slash "" path
  rwa [String.empty_append] at hsplit

theorem exists_eq_slash_append {path : String} (h : isRooted path = true) :
    ∃ rest, path = "/" ++ rest := by
  have hhead : path.toList.head? = some '/' := by simpa [isRooted] using h
  obtain ⟨rest, hrest⟩ := List.head?_eq_some_iff.mp hhead
  exact ⟨String.ofList rest, String.ext (by simp [hrest])⟩

/-- The components of a clean path are those it was made of. -/
theorem kept_ofKept (h : IsKept rooted names) :
    isRooted (ofKept rooted names) = rooted ∧ kept (ofKept rooted names) = names := by
  by_cases hne : names = []
  · subst hne
    cases rooted <;> exact ⟨rfl, rfl⟩
  · have hpieces := pieces_body h hne
    have hbody := body_ne_empty h hne
    cases rooted with
    | true =>
      -- the slash in front adds an empty component, which is not kept
      have hroot : isRooted ("/" ++ String.intercalate "/" names.reverse) = true := by
        simp [isRooted]
      refine ⟨hroot, ?_⟩
      show kept ("/" ++ String.intercalate "/" names.reverse) = names
      rw [kept, hroot, pieces_slash_append, hpieces, List.foldl_cons]
      exact h.foldl_push_reverse
    | false =>
      have hpath : ofKept false names = String.intercalate "/" names.reverse := by
        simp [ofKept, hbody]
      have hroot : isRooted (String.intercalate "/" names.reverse) = false := by
        -- a path from the root would have an empty component
        refine Bool.eq_false_iff.mpr fun hrooted => ?_
        obtain ⟨rest, hrest⟩ := exists_eq_slash_append hrooted
        rw [hrest, pieces_slash_append] at hpieces
        have hmem : "" ∈ names := List.mem_reverse.mp (hpieces ▸ List.mem_cons_self)
        exact h.ne_empty "" hmem rfl
      rw [hpath]
      refine ⟨hroot, ?_⟩
      rw [kept, hroot, hpieces]
      exact h.foldl_push_reverse

theorem ofKept_inj (h : IsKept rooted names) (h' : IsKept rooted' names') :
    ofKept rooted names = ofKept rooted' names' ↔ rooted = rooted' ∧ names = names' := by
  constructor
  · intro heq
    obtain ⟨hroot, hkept⟩ := kept_ofKept h
    obtain ⟨hroot', hkept'⟩ := kept_ofKept h'
    rw [← heq] at hroot' hkept'
    exact ⟨hroot.symm.trans hroot', hkept.symm.trans hkept'⟩
  · rintro ⟨rfl, rfl⟩
    rfl

/-! ## The last component -/

/-- What stands before the last component of a clean path. -/
def front (rooted : Bool) (names : List String) : String :=
  if names = [] then (if rooted then "/" else "") else ofKept rooted names ++ "/"

theorem ofKept_cons (h : IsKept rooted (first :: names)) :
    ofKept rooted (first :: names) = front rooted names ++ first := by
  have hbody := body_ne_empty h (by simp)
  rw [List.reverse_cons] at hbody
  by_cases hne : names = []
  · subst hne
    cases rooted with
    | true => simp [ofKept, front]
    | false =>
      have hfirst : first ≠ "" := by simpa using hbody
      simp [ofKept, front, hfirst]
  · -- several components are joined, the innermost behind the last slash
    have hconcat : String.intercalate "/" (names.reverse ++ [first]) =
        String.intercalate "/" names.reverse ++ "/" ++ first := by
      rw [String.intercalate_append_of_ne_nil (by simpa using hne) (by simp),
        String.intercalate_singleton]
    have houter := body_ne_empty h.tail hne
    rw [front, if_neg hne]
    cases rooted with
    | true => simp [ofKept, hconcat, String.append_assoc]
    | false =>
      rw [hconcat] at hbody
      simp [ofKept, hconcat, hbody, houter]

/-- There is nothing before the last component, or it ends in a slash. -/
theorem front_ends (rooted : Bool) (names : List String) :
    (front rooted names).toList.reverse = [] ∨
      ∃ rest, (front rooted names).toList.reverse = '/' :: rest := by
  unfold front
  split
  · cases rooted with
    | true => exact .inr ⟨[], rfl⟩
    | false => exact .inl rfl
  · exact .inr ⟨(ofKept rooted names).toList.reverse, by simp⟩

theorem ofKept_ne_empty (h : IsKept rooted names) : ofKept rooted names ≠ "" := by
  cases names with
  | nil => cases rooted <;> decide
  | cons first names =>
    rw [ofKept_cons h]
    simp [h.ne_empty first List.mem_cons_self]

/-- The characters of a kept component, read from its end, are no slashes. -/
theorem ne_slash_of_mem_reverse (h : IsKept rooted (first :: names)) :
    ∀ c ∈ first.toList.reverse, (c != '/') = true := by
  intro c hc
  have hslash := h.no_slash first List.mem_cons_self
  exact bne_iff_ne.mpr fun heq => hslash (heq ▸ List.mem_reverse.mp hc)

theorem clean_front (h : IsKept rooted names) :
    clean (front rooted names) = ofKept rooted names := by
  unfold front
  split
  next hempty =>
    subst hempty
    cases rooted <;> rfl
  next hne =>
    -- the empty component after the slash is not kept
    obtain ⟨hroot, hkept⟩ := kept_ofKept h
    have hslash : isRooted (ofKept rooted names ++ "/") = rooted := by
      rw [isRooted_append (ofKept_ne_empty h), hroot]
    have hpieces := pieces_append_slash (ofKept rooted names) ""
    rw [String.append_empty] at hpieces
    rw [clean_eq, hslash, kept, hslash, hpieces, List.foldl_append]
    rw [kept, hroot] at hkept
    rw [hkept]
    rfl

/-- The directory of a clean path has the components but the last. -/
theorem dir_ofKept_cons (h : IsKept rooted (first :: names)) :
    dir (ofKept rooted (first :: names)) = ofKept rooted names := by
  have hfront : (front rooted names).toList.reverse.dropWhile (· != '/') =
      (front rooted names).toList.reverse := by
    rcases front_ends rooted names with hnil | ⟨rest, hrest⟩
    · simp [hnil]
    · simp [hrest]
  rw [dir, ofKept_cons h, String.toList_append, List.reverse_append,
    List.dropWhile_append_of_pos (ne_slash_of_mem_reverse h), hfront, List.reverse_reverse,
    String.ofList_toList, clean_front h.tail]

theorem base_ofKept_cons (h : IsKept rooted (first :: names)) :
    base (ofKept rooted (first :: names)) = first := by
  have hne : first.toList ≠ [] :=
    fun hnil => h.ne_empty first List.mem_cons_self (String.toList_eq_nil_iff.mp hnil)
  have hfirst := ne_slash_of_mem_reverse h
  have hfront : (front rooted names).toList.reverse.takeWhile (· != '/') = [] := by
    rcases front_ends rooted names with hnil | ⟨rest, hrest⟩
    · simp [hnil]
    · simp [hrest]
  -- the path does not end in a slash, so nothing is trimmed
  have htrimmed : (ofKept rooted (first :: names)).toList.reverse.dropWhile (· == '/') =
      first.toList.reverse ++ (front rooted names).toList.reverse := by
    rw [ofKept_cons h, String.toList_append, List.reverse_append]
    have hreverse : first.toList.reverse ≠ [] := by simpa using hne
    obtain ⟨c, cs, hcs⟩ := List.exists_cons_of_ne_nil hreverse
    have hc := hfirst c (by rw [hcs]; exact List.mem_cons_self)
    rw [hcs, List.cons_append, List.dropWhile_cons_of_neg (by simpa using hc)]
  rw [base, if_neg (ofKept_ne_empty h), htrimmed]
  simp [hne, List.takeWhile_append_of_pos hfirst, hfront]

end

theorem clean_clean (path : String) : clean (clean path) = clean path := by
  obtain ⟨hroot, hkept⟩ := kept_ofKept (isKept_kept path)
  rw [clean_eq path, clean_eq, hroot, hkept]

theorem clean_ne_empty (path : String) : clean path ≠ "" :=
  ofKept_ne_empty (isKept_kept path)

theorem clean_dir (path : String) : clean (dir path) = dir path :=
  clean_clean _

/-- The name of a file in the working directory is the last component of its path. -/
theorem base_of_isName {name : String} (h : IsName name) : base name = name := by
  have hpath : ofKept false [name] = name := by simp [ofKept, h.ne_empty]
  rw [← hpath, base_ofKept_cons (.name h .nil), hpath]

theorem base_slash_append {name : String} (h : IsName name) : base ("/" ++ name) = name := by
  have hpath : ofKept true [name] = "/" ++ name := by simp [ofKept]
  rw [← hpath, base_ofKept_cons (.name h .nil)]

/-- The last component is a slash for the root, and else a text without slashes. -/
theorem base_cases (path : String) :
    base path = "/" ∨ base path ≠ "" ∧ '/' ∉ (base path).toList := by
  unfold base
  split
  · exact .inr (by decide)
  · dsimp only
    cases htrimmed : path.toList.reverse.dropWhile (· == '/') with
    | nil => exact .inl rfl
    | cons c cs =>
      -- what is left after the slashes does not begin with one
      have hc : (c == '/') = false := by
        have hhead := List.head?_dropWhile_not (· == '/') path.toList.reverse
        rw [htrimmed] at hhead
        simpa using hhead
      refine .inr ⟨by simp [bne, hc], ?_⟩
      intro hslash
      have hmem : '/' ∈ (c :: cs).takeWhile (· != '/') := by simpa using hslash
      simpa using List.all_eq_true.mp List.all_takeWhile _ hmem

/-- A stem is a slash for the root, and else a text without slashes. -/
theorem stem_cases (path : String) :
    stem path = "/" ∨ stem path ≠ "" ∧ '/' ∉ (stem path).toList := by
  unfold stem
  dsimp only
  split
  · exact base_cases path
  next hfront =>
    rcases base_cases path with hroot | ⟨-, hslash⟩
    · rw [hroot]
      exact .inl rfl
    · refine .inr ⟨by simpa using hfront, fun hmem => hslash ?_⟩
      rw [String.toList_ofList] at hmem
      exact (List.takeWhile_prefix _).subset hmem

/-- Joining adds the components of the second path to those of the first. -/
theorem join_eq {a b : String} (ha : a ≠ "") (hb : b ≠ "") :
    join a b = ofKept (isRooted a) ((pieces b).foldl (push (isRooted a)) (kept a)) := by
  have hroot : isRooted (a ++ "/" ++ b) = isRooted a := by
    rw [String.append_assoc, isRooted_append ha]
  rw [join, if_neg ha, if_neg hb, clean_eq, kept, hroot, pieces_append_slash, List.foldl_append]
  rfl

/-! ## The directories on the way to a path -/

section Way

variable {rooted : Bool} {names : List String} {first : String}

/-- The components of a path, joined, are the path. -/
theorem intercalate_pieces (path : String) : String.intercalate "/" (pieces path) = path := by
  refine String.ext ?_
  have hslash : "/".toList = ['/'] := rfl
  rw [String.toList_intercalate, hslash, pieces, List.map_map]
  simp [Function.comp_def, List.intercalate_splitOn]

/-- The joined beginnings of a list of components, the shortest first. -/
def beginnings (names : List String) : List String :=
  (List.range names.length).map fun k => String.intercalate "/" (names.take (k + 1))

theorem leading_eq (path : String) :
    leading path = (beginnings (pieces path)).filter (· ≠ "") := rfl

theorem beginnings_concat (names : List String) (name : String) :
    beginnings (names ++ [name]) =
      beginnings names ++ [String.intercalate "/" (names ++ [name])] := by
  rw [beginnings, List.length_append, List.length_singleton, List.range_succ, List.map_append]
  congr 1
  · refine List.map_congr_left fun k hk => ?_
    rw [List.take_append_of_le_length (List.mem_range.mp hk)]
  · rw [List.map_singleton, List.take_of_length_le (by simp)]

theorem ancestors_root : ancestors "/" = ["/"] := by
  decide +kernel

/-- The components of a clean path. From the root they begin with an empty one. -/
theorem pieces_ofKept (h : IsKept rooted names) (hne : names ≠ []) :
    pieces (ofKept rooted names) = (if rooted then [""] else []) ++ names.reverse := by
  cases rooted with
  | true =>
    show pieces ("/" ++ String.intercalate "/" names.reverse) = _
    rw [pieces_slash_append, pieces_body h hne]
    rfl
  | false =>
    have hpath : ofKept false names = String.intercalate "/" names.reverse := by
      simp [ofKept, body_ne_empty h hne]
    rw [hpath, pieces_body h hne]
    rfl

/-- The leading parts of a clean path are the path itself and those of the path without its last
component. -/
theorem leading_ofKept_cons (h : IsKept rooted (first :: names)) :
    leading (ofKept rooted (first :: names)) =
      (if names = [] then [] else leading (ofKept rooted names)) ++
        [ofKept rooted (first :: names)] := by
  have hpieces := pieces_ofKept h (List.cons_ne_nil _ _)
  have hwhole := intercalate_pieces (ofKept rooted (first :: names))
  rw [List.reverse_cons, ← List.append_assoc] at hpieces
  rw [hpieces] at hwhole
  rw [leading_eq, hpieces, beginnings_concat, hwhole, List.filter_append,
    List.filter_cons_of_pos (by simpa using ofKept_ne_empty h), List.filter_nil]
  congr 1
  by_cases hne : names = []
  · subst hne
    cases rooted <;> rfl
  · rw [if_neg hne, leading_eq, pieces_ofKept h.tail hne]

/-- Leading parts of a clean path have its outer components. -/
theorem exists_suffix_of_mem_leading (h : IsKept rooted names) {path : String}
    (hpath : path ∈ leading (ofKept rooted names)) :
    ∃ outer, outer <:+ names ∧ path = ofKept rooted outer := by
  induction names with
  | nil =>
    refine ⟨[], List.suffix_refl [], ?_⟩
    have hleading : leading (ofKept rooted []) = [ofKept rooted []] := by
      cases rooted <;> decide +kernel
    exact List.mem_singleton.mp (hleading ▸ hpath)
  | cons first rest ih =>
    rw [leading_ofKept_cons h, List.mem_append, List.mem_singleton] at hpath
    rcases hpath with houter | rfl
    · split at houter
      · cases houter
      · obtain ⟨outer, hsuffix, rfl⟩ := ih h.tail houter
        exact ⟨outer, hsuffix.trans (List.suffix_cons first rest), rfl⟩
    · exact ⟨_, List.suffix_refl _, rfl⟩

/-- The directories above a path from the root are the path without its last component and the
directories above that. -/
theorem ancestors_ofKept_cons (h : IsKept true (first :: names)) :
    ancestors (ofKept true (first :: names)) =
      ofKept true (first :: names) :: ancestors (ofKept true names) := by
  have hroot : ofKept true (first :: names) ≠ "/" := by
    intro heq
    have hnil : ofKept true [] = "/" := rfl
    exact List.cons_ne_nil _ _ ((ofKept_inj h .nil).mp (heq.trans hnil.symm)).2
  have houter : ancestors (ofKept true names) =
      ((if names = [] then [] else leading (ofKept true names)).filter (· ≠ "/")).reverse ++
        ["/"] := by
    split
    next hempty =>
      subst hempty
      decide +kernel
    next => rfl
  rw [houter, ancestors, leading_ofKept_cons h, List.filter_append,
    List.filter_cons_of_pos (by simpa using hroot), List.filter_nil, List.reverse_append]
  rfl

theorem dir_root : dir "/" = "/" := by
  decide +kernel

/-- Going up leaves out the innermost components, and stays at the root. -/
theorem iterate_dir_ofKept (h : IsKept true names) (k : Nat) :
    dir^[k] (ofKept true names) = ofKept true (names.drop k) := by
  induction names generalizing k with
  | nil =>
    rw [List.drop_nil]
    exact Function.iterate_fixed dir_root k
  | cons first rest ih =>
    cases k with
    | zero => rfl
    | succ k => rw [Function.iterate_succ_apply, dir_ofKept_cons h, ih h.tail, List.drop_succ_cons]

/-- A path without slashes is in the working directory. Another one is in the directory that it
names before its last slash. -/
theorem dir_cases (path : String) :
    '/' ∉ path.toList ∧ dir path = clean "" ∨
      ∃ outer last, '/' ∉ last.toList ∧ path = outer ++ "/" ++ last ∧
        dir path = clean (outer ++ "/") := by
  have hsplit := List.takeWhile_append_dropWhile (p := (· != '/')) (l := path.toList.reverse)
  have hlast : '/' ∉ path.toList.reverse.takeWhile (· != '/') := by
    intro hmem
    simpa using List.all_eq_true.mp List.all_takeWhile _ hmem
  cases hdrop : path.toList.reverse.dropWhile (· != '/') with
  | nil =>
    rw [hdrop, List.append_nil] at hsplit
    rw [hsplit] at hlast
    exact .inl ⟨by simpa using hlast, by rw [dir, hdrop]; rfl⟩
  | cons slash outer =>
    -- what is left of the path begins with the last slash
    have hslash : slash = '/' := by
      have hhead := List.head?_dropWhile_not (· != '/') path.toList.reverse
      rw [hdrop] at hhead
      simpa using hhead
    subst hslash
    rw [hdrop] at hsplit
    have hfront : String.ofList outer.reverse ++ "/" = String.ofList ('/' :: outer).reverse :=
      String.ext (by simp)
    refine .inr ⟨.ofList outer.reverse,
      .ofList (path.toList.reverse.takeWhile (· != '/')).reverse, by simpa using hlast, ?_, ?_⟩
    · refine String.ext ?_
      rw [hfront, String.toList_append, String.toList_ofList, String.toList_ofList,
        ← List.reverse_append, hsplit, List.reverse_reverse]
    · rw [dir, hdrop, hfront]

end Way

end CodeEmission.Path
