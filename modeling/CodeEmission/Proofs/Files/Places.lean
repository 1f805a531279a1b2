import CodeEmission.Proofs.Files.Operations
import CodeEmission.Proofs.Files.Path

/-!
# Directories on the Way to a File

The place that a path stands for, and the places of the directories on the way to it. Where a file
is there already, no directory is missing on the way, also if the path goes up again by `..`.

* `placeOf_clean` and `placeOf_eq_step`: cleaning a path leaves its place, and from the place of
  its directory the last component leads there.
* `Closed`: what a place holds stands in a directory. Operations keep it so.
* `Closed.makeDirectory_ne_ok`: on the way to a file no directory can be made.
-/

namespace CodeEmission.Tree

variable {t t' : Tree} {path : String} {current p place : Place} {rooted : Bool}
  {names inner : List String} {name : String}

/-! ## Places of clean paths -/

/-- Where kept components lead from a place. -/
def under (start : Place) (names : List String) : Place :=
  names.foldr (fun name p => step p name) start

/-- Where a path starts by its text. -/
def origin (current : Place) (rooted : Bool) : Place :=
  if rooted then [] else current

theorem placeOf_eq_foldl (current : Place) (path : String) :
    placeOf current path =
      (Path.pieces path).foldl step (origin current (Path.isRooted path)) := rfl

theorem step_of_isName (h : Path.IsName name) (p : Place) : step p name = name :: p := by
  simp [step, h.ne_empty, h.ne_dot, h.ne_up]

theorem step_up (p : Place) : step p ".." = p.tail := by
  simp [step]

/-- What cleaning keeps after one more component leads where that component leads. -/
theorem under_push (h : Path.IsKept rooted names) (current : Place) (piece : String) :
    under (origin current rooted) (Path.push rooted names piece) =
      step (under (origin current rooted) names) piece := by
  unfold Path.push
  split
  next hskip => rw [step, if_pos hskip]
  next hskip =>
    split
    next hup =>
      subst hup
      rw [step_up]
      cases h with
      | nil => cases rooted <;> rfl
      | name hname _ =>
        -- the component that is left again is that name
        simp [hname.ne_up, under, step_of_isName hname]
      | up _ _ => exact step_up _
    next => rfl

theorem under_foldl_push (h : Path.IsKept rooted names) (current : Place) {parts : List String}
    (hparts : ∀ part ∈ parts, '/' ∉ part.toList) :
    under (origin current rooted) (parts.foldl (Path.push rooted) names) =
      parts.foldl step (under (origin current rooted) names) := by
  induction parts generalizing names with
  | nil => rfl
  | cons part rest ih =>
    obtain ⟨hpart, hrest⟩ := List.forall_mem_cons.mp hparts
    rw [List.foldl_cons, List.foldl_cons, ← under_push h]
    exact ih (h.push hpart) hrest

theorem placeOf_ofKept (h : Path.IsKept rooted names) (current : Place) :
    placeOf current (Path.ofKept rooted names) = under (origin current rooted) names := by
  rw [placeOf_eq_foldl, (Path.kept_ofKept h).1]
  by_cases hne : names = []
  · subst hne
    cases rooted <;> rfl
  · rw [Path.pieces_ofKept h hne, List.foldl_append, List.foldl_reverse, under]
    cases rooted <;> rfl

/-- A path and the clean one stand for the same place. -/
theorem placeOf_clean (current : Place) (path : String) :
    placeOf current (Path.clean path) = placeOf current path := by
  rw [Path.clean_eq, placeOf_ofKept (Path.isKept_kept path), Path.kept,
    under_foldl_push .nil current fun _ => Path.no_slash_of_mem_pieces]
  rfl

/-- From the place of its directory, a path leads on by its last component. -/
theorem placeOf_eq_step (current : Place) (path : String) :
    ∃ last, placeOf current path = step (placeOf current (Path.dir path)) last := by
  rcases Path.dir_cases path with ⟨hslash, hdir⟩ | ⟨outer, last, hslash, rfl, hdir⟩
  · refine ⟨path, ?_⟩
    have hroot : Path.isRooted path = false := by
      refine Bool.eq_false_iff.mpr fun hrooted => ?_
      obtain ⟨rest, rfl⟩ := Path.exists_eq_slash_append hrooted
      simp at hslash
    rw [hdir, placeOf_clean, placeOf_eq_foldl, Path.pieces_eq_singleton hslash, hroot]
    rfl
  · refine ⟨last, ?_⟩
    have hne : outer ++ "/" ≠ "" := by simp
    have hblank := Path.pieces_append_slash outer ""
    rw [String.append_empty] at hblank
    -- the empty component after the last slash leads nowhere
    rw [hdir, placeOf_clean, placeOf_eq_foldl, placeOf_eq_foldl, Path.isRooted_append hne,
      Path.pieces_append_slash, hblank, Path.pieces_eq_singleton hslash, List.foldl_append,
      List.foldl_append]
    rfl

/-- The last name of a clean path is its last component. -/
theorem name?_ofKept_cons (h : Path.IsKept rooted (name :: names)) :
    (lastName (Path.ofKept rooted (name :: names))).name? = some name := by
  have hne : name ≠ "" := h.ne_empty name List.mem_cons_self
  have hpieces := Path.pieces_ofKept h (List.cons_ne_nil _ _)
  rw [List.reverse_cons, ← List.append_assoc] at hpieces
  rw [lastName, hpieces, List.reverse_concat, List.dropWhile_cons_of_neg (by simpa using hne)]

/-- Inside of a name there are only names, each of which leads to a place inside. -/
theorem under_append (h : Path.IsKept rooted (inner ++ name :: names)) (hname : name ≠ "..")
    (start : Place) :
    under start (inner ++ name :: names) = inner ++ under start (name :: names) := by
  induction inner with
  | nil => rfl
  | cons n rest ih =>
    cases h with
    | name hn hrest =>
      rw [List.cons_append, List.cons_append, ← ih hrest]
      exact step_of_isName hn _
    | up _ hup => exact absurd (hup name (by simp)) hname

/-! ## Closed trees -/

/-- What a place holds stands in a directory. -/
def Closed (t : Tree) : Prop :=
  ∀ name p, t.get? (name :: p) ≠ none → t.get? p = some .directory

/-- Whether a tree is closed can be seen from its entries. -/
theorem closed_of_entries
    (h : t.entries.all (fun x => t.get? x.1.tail = some .directory) = true) : t.Closed := by
  intro name p hheld
  obtain ⟨entry, hentry⟩ := Option.ne_none_iff_exists'.mp hheld
  rw [get?_eq_lookup t (List.cons_ne_nil _ _), List.lookup_eq_some_iff] at hentry
  obtain ⟨before, after, hentries, -⟩ := hentry
  have hmem : (name :: p, entry) ∈ t.entries := by simp [hentries]
  exact of_decide_eq_true (List.all_eq_true.mp h _ hmem)

namespace Closed

/-- The places on the way to one that holds something hold something. -/
theorem held_of_append (h : t.Closed) (hheld : t.get? (inner ++ p) ≠ none) :
    t.get? p ≠ none := by
  induction inner with
  | nil => exact hheld
  | cons name rest ih =>
    refine ih ?_
    rw [h name (rest ++ p) hheld]
    exact Option.some_ne_none _

/-- What leads from a directory to nothing is a name. -/
theorem step_of_free (h : t.Closed) (hparent : t.get? p = some .directory)
    (hfree : t.get? (step p name) = none) :
    name ≠ "." ∧ name ≠ ".." ∧ step p name = name :: p := by
  have hheld : t.get? p ≠ none := by simp [hparent]
  have hup : t.get? p.tail ≠ none := by
    cases p with
    | nil => exact hheld
    | cons n rest => simp [h n rest hheld]
  unfold step at hfree ⊢
  split at hfree
  · exact absurd hfree hheld
  next hskip =>
    split at hfree
    · exact absurd hfree hup
    next hne => exact ⟨(not_or.mp hskip).2, hne, by rw [if_neg hskip, if_neg hne]⟩

/-- A directory that can be made is missing at a place that no file can be at, nor inside of, nor
around. -/
theorem not_file_of_append (h : t.Closed) {parent : Place} {last : String}
    (hparent : t.get? parent = some .directory) (hfree : t.get? (name :: parent) = none)
    (serial : Nat) (content : List UInt8) :
    t.get? (step (inner ++ name :: parent) last) ≠ some (.file serial content) := by
  intro hfile
  have hnone : ∀ outer : List String, t.get? (outer ++ name :: parent) = none := fun outer =>
    not_not.mp fun hheld => h.held_of_append hheld hfree
  unfold step at hfile
  split at hfile
  · rw [hnone] at hfile
    cases hfile
  · split at hfile
    · cases inner with
      | nil =>
        rw [List.nil_append, List.tail_cons, hparent] at hfile
        cases hfile
      | cons n rest =>
        rw [List.cons_append, List.tail_cons, hnone] at hfile
        cases hfile
    · rw [← List.cons_append, hnone] at hfile
      cases hfile

/-- On the way to a file no directory is missing, so none can be made. -/
theorem makeDirectory_ne_ok (h : t.Closed) {serial : Nat} {content : List UInt8}
    (hfile : t.get? (placeOf t.current path) = some (.file serial content)) {part : String}
    (hpart : part ∈ Path.leading (Path.dir path)) (t' : Tree) : t.makeDirectory part ≠ .ok t' := by
  intro hmade
  obtain ⟨parent, name, hname, hplace, hparent, hfree, -⟩ := makeDirectory_eq_ok hmade
  obtain ⟨hdot, hup, hstep⟩ := h.step_of_free hparent hfree
  rw [hstep] at hplace hfree
  -- the directory of the path is given by kept components, and the part by the outer ones
  have hkept := Path.isKept_kept (Path.dir path)
  have hdir := Path.clean_dir path
  rw [Path.clean_eq] at hdir
  rw [← hdir] at hpart
  obtain ⟨outer, ⟨inner, hnames⟩, hpart⟩ := Path.exists_suffix_of_mem_leading hkept hpart
  rw [← hnames] at hkept hdir
  rw [hpart] at hname hplace
  cases outer with
  | nil =>
    -- the root cannot be made, nor the working directory
    cases hroot : Path.isRooted (Path.dir path) with
    | true =>
      rw [hroot] at hname
      cases hname
    | false =>
      rw [hroot] at hname
      cases hname
      exact hdot rfl
  | cons first rest =>
    have houter : Path.IsKept (Path.isRooted (Path.dir path)) (first :: rest) :=
      hkept.of_suffix (List.suffix_append inner _)
    cases Option.some.inj ((name?_ofKept_cons houter).symm.trans hname)
    obtain ⟨last, hlast⟩ := placeOf_eq_step t.current path
    rw [← hdir, placeOf_ofKept hkept, under_append hkept hup, ← placeOf_ofKept houter, hplace]
      at hlast
    rw [hlast] at hfile
    exact h.not_file_of_append hparent hfree serial content hfile

/-! ### Trees that stay closed -/

theorem of_get?_eq (h : t.Closed) (hsame : ∀ q, t'.get? q = t.get? q) : t'.Closed := by
  intro name p hheld
  rw [hsame] at hheld ⊢
  exact h name p hheld

/-- What is put into a directory, in place of anything but a directory. -/
theorem set (h : t.Closed) (hparent : t.get? p = some .directory)
    (hnot : t.get? (name :: p) ≠ some .directory) (entry : Entry) :
    (t.set (name :: p) entry).Closed := by
  intro n q hheld
  by_cases hsame : n :: q = name :: p
  · cases hsame
    rw [get?_set_of_ne t (List.cons_ne_self _ _).symm, hparent]
  · rw [get?_set_of_ne t hsame] at hheld
    have hq := h n q hheld
    have hne : q ≠ name :: p := by
      rintro rfl
      exact hnot hq
    rw [get?_set_of_ne t hne, hq]

/-- What is taken away and is no directory. -/
theorem erase (h : t.Closed) (hnot : t.get? place ≠ some .directory) : (t.erase place).Closed := by
  have hroot : place ≠ [] := by
    rintro rfl
    exact hnot rfl
  intro name p hheld
  have hne : name :: p ≠ place := by
    rintro rfl
    exact hheld (get?_erase_self t hroot)
  rw [get?_erase_of_ne t hne] at hheld
  have hp := h name p hheld
  have hne' : p ≠ place := by
    rintro rfl
    exact hnot hp
  rw [get?_erase_of_ne t hne', hp]

/-- A path that can be followed, to anything but a directory, ends in a directory. -/
theorem exists_parent (h : t.Closed) (hlocate : t.locate path = .ok place)
    (hnot : t.get? place ≠ some .directory) :
    ∃ name parent, place = name :: parent ∧ t.get? parent = some .directory := by
  obtain ⟨start, -, hfollow⟩ := bind_eq_ok_iff.mp hlocate
  have hne : Path.pieces path ≠ [] := by simp [Path.pieces]
  obtain ⟨before, last, hpieces⟩ : ∃ before last, Path.pieces path = before ++ [last] :=
    ⟨_, _, (List.dropLast_concat_getLast hne).symm⟩
  rw [hpieces, follow_append] at hfollow
  obtain ⟨parent, -, hfollow⟩ := bind_eq_ok_iff.mp hfollow
  obtain ⟨hparent, -, hstop⟩ := follow_cons_eq_ok_iff.mp hfollow
  cases Except.ok.inj hstop
  cases hget : t.get? (step parent last) with
  | none => exact ⟨last, parent, (h.step_of_free hparent hget).2.2, hparent⟩
  | some entry =>
    cases hplace : step parent last with
    | nil =>
      rw [hplace] at hnot
      exact absurd rfl hnot
    | cons name outer =>
      rw [hplace] at hget
      exact ⟨name, outer, rfl, h name outer (by simp [hget])⟩

theorem makeDirectory (h : t.Closed) (hmade : t.makeDirectory path = .ok t') : t'.Closed := by
  obtain ⟨parent, name, -, -, hparent, hfree, rfl⟩ := makeDirectory_eq_ok hmade
  have hstep := (h.step_of_free hparent hfree).2.2
  rw [hstep] at hfree ⊢
  exact h.set hparent (by simp [hfree]) _

theorem rename (h : t.Closed) {source target : String} (hmoved : t.rename source target = .ok t') :
    t'.Closed := by
  obtain ⟨origin, place, serial, content, -, hplace, hfile, hnot, rfl⟩ := rename_eq_ok hmoved
  split
  · exact h
  next hne =>
    obtain ⟨name, parent, rfl, hparent⟩ := h.exists_parent hplace hnot
    have hparent' : parent ≠ origin := by
      rintro rfl
      rw [hfile] at hparent
      cases hparent
    refine (h.erase (by simp [hfile])).set ?_ ?_ _
    · rw [get?_erase_of_ne t hparent', hparent]
    · rwa [get?_erase_of_ne t (Ne.symm hne)]

end Closed

/-- The trees that file systems have. -/
structure WellFormed (t : Tree) : Prop where
  sound : t.Sound
  closed : t.Closed

end CodeEmission.Tree
