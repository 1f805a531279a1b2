import CodeEmission.Files.Tree
import CodeEmission.Proofs.Success

/-!
# Operations of a Tree

Where paths lead in a tree, and what its operations did if they had an effect.

* `placeOf`: the place that a path stands for by its text. A path that can be followed leads there
  (`locate_eq_placeOf`).
* `KeepsDirectories.locate`: paths lead to the same places as long as directories stay.
* `LeadsTo`: a path that leads to a place by an ordinary name. A file there can be removed.
* `createNew_eq_ok`, `makeDirectory_eq_ok` and `rename_eq_ok`: one lemma for each operation.
-/

namespace CodeEmission

/-- An entry after data were added to the file of a serial number. -/
def Entry.append (serial : Nat) (data : List UInt8) : Entry → Entry
  | .file s content => .file s (if s = serial then content ++ data else content)
  | .directory => .directory

namespace Tree

variable {t t' : Tree} {path : String} {p q place : Place} {name : String} {names : List String}

/-! ## Paths and places -/

/-- Where one component leads from a place, by its text alone. -/
def step (p : Place) (name : String) : Place :=
  if name = "" ∨ name = "." then p else if name = ".." then p.tail else name :: p

/-- The place that a path stands for, seen from a working directory. -/
def placeOf (current : Place) (path : String) : Place :=
  (Path.pieces path).foldl step (if Path.isRooted path then [] else current)

/-- Following a component needs a directory to start from and a name that is not too long. -/
theorem follow_cons (t : Tree) (p : Place) (name : String) (names : List String) :
    t.follow p (name :: names) =
      match t.get? p with
      | none => .error .notFound
      | some (.file _ _) => .error .notDirectory
      | some .directory =>
        if nameLimit < name.utf8ByteSize then .error .nameTooLong
        else t.follow (step p name) names := by
  -- the three ways on from a directory are those of `step`
  have hstep : t.follow (step p name) names =
      if name = "" ∨ name = "." then t.follow p names
      else if name = ".." then t.follow p.tail names else t.follow (name :: p) names := by
    rw [step, apply_ite (t.follow · names), apply_ite (t.follow · names)]
  cases hget : t.get? p with
  | none => simp only [follow, hget]
  | some entry =>
    cases entry with
    | file serial content => simp only [follow, hget]
    | directory => simp only [follow, hget, hstep]

theorem follow_cons_eq_ok_iff :
    t.follow p (name :: names) = .ok q ↔
      t.get? p = some .directory ∧ name.utf8ByteSize ≤ nameLimit ∧
        t.follow (step p name) names = .ok q := by
  rw [follow_cons]
  split
  next hnone => simp [hnone]
  next hfile => simp [hfile]
  next hdirectory =>
    split
    next hlong => simp [Nat.not_le.mpr hlong]
    next hshort => simp [hdirectory, Nat.le_of_not_lt hshort]

/-- Components that can be followed lead where their text says. -/
theorem follow_eq_foldl (h : t.follow p names = .ok q) : q = names.foldl step p := by
  induction names generalizing p with
  | nil => exact (Except.ok.inj h).symm
  | cons name rest ih => exact ih (follow_cons_eq_ok_iff.mp h).2.2

theorem follow_append (t : Tree) (p : Place) (before : List String) :
    t.follow p (before ++ names) = t.follow p before >>= fun q => t.follow q names := by
  induction before generalizing p with
  | nil => rfl
  | cons name rest ih =>
    -- both sides stop at this component, or neither does
    rw [List.cons_append, follow_cons, follow_cons]
    split
    · rfl
    · rfl
    · split
      · rfl
      · exact ih (step p name)

theorem startOf_eq_ok (h : t.startOf path = .ok p) :
    p = if Path.isRooted path then [] else t.current := by
  unfold startOf at h
  split at h
  · cases h
  · split at h
    · cases h
    · split at h
      · cases h
      · exact (Except.ok.inj h).symm

theorem locate_eq_placeOf (h : t.locate path = .ok q) : q = placeOf t.current path := by
  obtain ⟨start, hstart, hfollow⟩ := bind_eq_ok_iff.mp h
  rw [follow_eq_foldl hfollow, startOf_eq_ok hstart]
  rfl

/-- Every directory of a tree is one of another tree, with the same working directory. -/
structure KeepsDirectories (t t' : Tree) : Prop where
  current : t'.current = t.current
  directory : ∀ q, t.get? q = some .directory → t'.get? q = some .directory

namespace KeepsDirectories

theorem follow (hkeep : t.KeepsDirectories t') (h : t.follow p names = .ok q) :
    t'.follow p names = .ok q := by
  induction names generalizing p with
  | nil => exact h
  | cons name rest ih =>
    obtain ⟨hdirectory, hshort, hrest⟩ := follow_cons_eq_ok_iff.mp h
    exact follow_cons_eq_ok_iff.mpr ⟨hkeep.directory p hdirectory, hshort, ih hrest⟩

theorem startOf (hkeep : t.KeepsDirectories t') : t'.startOf path = t.startOf path := by
  unfold Tree.startOf
  rw [hkeep.current]

theorem locate (hkeep : t.KeepsDirectories t') (h : t.locate path = .ok q) :
    t'.locate path = .ok q := by
  obtain ⟨start, hstart, hfollow⟩ := bind_eq_ok_iff.mp h
  refine bind_eq_ok_iff.mpr ⟨start, ?_, hkeep.follow hfollow⟩
  rwa [hkeep.startOf]

theorem locateParent (hkeep : t.KeepsDirectories t') {found : Place × LastName}
    (h : t.locateParent path = .ok found) : t'.locateParent path = .ok found := by
  obtain ⟨start, hstart, h⟩ := bind_eq_ok_iff.mp h
  obtain ⟨directory, hdirectory, h⟩ := bind_eq_ok_iff.mp h
  exact bind_eq_ok_iff.mpr ⟨start, hkeep.startOf.trans hstart,
    bind_eq_ok_iff.mpr ⟨directory, hkeep.follow hdirectory, h⟩⟩

end KeepsDirectories

theorem read_eq_ok_iff {content : List UInt8} :
    t.read path = .ok content ↔
      ∃ place serial, t.locate path = .ok place ∧ t.get? place = some (.file serial content) := by
  rw [read, bind_eq_ok_iff]
  constructor
  · rintro ⟨place, hlocate, hread⟩
    split at hread
    · cases hread
    · cases hread
    next serial found hget =>
      cases Except.ok.inj hread
      exact ⟨place, serial, hlocate, hget⟩
  · rintro ⟨place, serial, hlocate, hget⟩
    exact ⟨place, hlocate, by rw [hget]; rfl⟩

/-! ## Single operations -/

/-- A place that holds something is not a free one. -/
theorem ne_of_free {entry : Entry} (hfree : t.get? place = none) (hq : t.get? q = some entry) :
    q ≠ place := by
  rintro rfl
  rw [hfree] at hq
  cases hq

/-- The root holds a directory. -/
theorem root_not_free (hfree : t.get? place = none) : place ≠ [] := by
  rintro rfl
  cases hfree

/-- The serial numbers of files are among those that were given out. -/
def Sound (t : Tree) : Prop :=
  ∀ q serial content, t.get? q = some (.file serial content) → serial < t.made

/-- Whether a tree is sound can be seen from its entries. -/
theorem sound_of_entries
    (h : (t.entries.all fun x => match x.2 with
      | .file serial _ => serial < t.made
      | .directory => true) = true) : t.Sound := by
  intro q serial content hq
  by_cases hroot : q = []
  · subst hroot
    cases hq
  · rw [get?_eq_lookup t hroot, List.lookup_eq_some_iff] at hq
    obtain ⟨before, after, hentries, -⟩ := hq
    have hmem : (q, Entry.file serial content) ∈ t.entries := by simp [hentries]
    simpa using List.all_eq_true.mp h _ hmem

theorem Sound.erase (h : t.Sound) (hplace : place ≠ []) : (t.erase place).Sound := by
  intro q serial content hq
  by_cases hsame : q = place
  · rw [hsame, get?_erase_self t hplace] at hq
    cases hq
  · rw [get?_erase_of_ne t hsame] at hq
    exact h q serial content hq

theorem get?_append (t : Tree) (serial : Nat) (data : List UInt8) (q : Place) :
    (t.append serial data).get? q = (t.get? q).map (Entry.append serial data) := by
  by_cases hq : q = []
  · subst hq
    rfl
  · -- the keys stay, so the same entry is found
    have hlookup (entries : List (Place × Entry)) :
        (entries.map fun x => (x.1, x.2.append serial data)).lookup q =
          (entries.lookup q).map (Entry.append serial data) := by
      induction entries with
      | nil => rfl
      | cons x rest ih =>
        rw [List.map_cons, List.lookup_cons, List.lookup_cons, ih]
        cases q == x.1 <;> rfl
    have hentries : (t.append serial data).entries =
        t.entries.map fun x => (x.1, x.2.append serial data) := by
      refine List.map_congr_left fun x _ => ?_
      obtain ⟨r, entry⟩ := x
      cases entry <;> rfl
    rw [get?_eq_lookup _ hq, get?_eq_lookup _ hq, hentries, hlookup]

/-- A path is its last name, what stands before it, and the empty components that slashes at the
end leave. -/
theorem pieces_eq_lastName (hname : (lastName path).name? = some name) :
    ∃ blanks, Path.pieces path = (lastName path).before ++ name :: blanks ∧
      (∀ blank ∈ blanks, blank = "") ∧ ((lastName path).slashed = false → blanks = []) := by
  cases hdrop : (Path.pieces path).reverse.dropWhile (· = "") with
  | nil => simp [lastName, hdrop] at hname
  | cons last before =>
    have hsplit := List.takeWhile_append_dropWhile (p := (· = "")) (l := (Path.pieces path).reverse)
    simp only [lastName, hdrop, Option.some.injEq, decide_eq_false_iff_not] at hname hsplit ⊢
    subst hname
    refine ⟨((Path.pieces path).reverse.takeWhile (· = "")).reverse, ?_, ?_, ?_⟩
    · calc Path.pieces path = (Path.pieces path).reverse.reverse := (List.reverse_reverse _).symm
        _ = ((Path.pieces path).reverse.takeWhile (· = "") ++ last :: before).reverse := by
          rw [hsplit]
        _ = before.reverse ++ last :: ((Path.pieces path).reverse.takeWhile (· = "")).reverse := by
          simp
    · intro blank hblank
      simpa using List.all_eq_true.mp List.all_takeWhile _ (List.mem_reverse.mp hblank)
    · -- without a slash at the end the last component is not empty
      intro hslashed
      cases hreverse : (Path.pieces path).reverse with
      | nil => rfl
      | cons first rest =>
        have hfirst : first ≠ "" := by simpa [hreverse] using hslashed
        rw [List.takeWhile_cons_of_neg (by simpa using hfirst)]
        rfl

theorem lastName_of_locateParent {parent : Place} {last : LastName}
    (h : t.locateParent path = .ok (parent, last)) : last = lastName path := by
  obtain ⟨start, -, h⟩ := bind_eq_ok_iff.mp h
  obtain ⟨directory, -, h⟩ := bind_eq_ok_iff.mp h
  exact (congrArg Prod.snd (Except.ok.inj h)).symm

/-- From the directory that holds its last name, a path leads on by that name. -/
theorem locate_of_locateParent {parent : Place} {last : LastName}
    (h : t.locateParent path = .ok (parent, last)) (hname : last.name? = some name)
    (hslashed : last.slashed = false) : t.locate path = t.follow parent [name] := by
  obtain ⟨start, hstart, h⟩ := bind_eq_ok_iff.mp h
  obtain ⟨directory, hdirectory, h⟩ := bind_eq_ok_iff.mp h
  cases Except.ok.inj h
  obtain ⟨blanks, hpieces, -, hblanks⟩ := pieces_eq_lastName hname
  rw [hblanks hslashed] at hpieces
  rw [locate, hstart, hpieces]
  show t.follow start ((lastName path).before ++ [name]) = _
  rw [follow_append, hdirectory]
  rfl

/-- By its text, a path stands for where its last name leads from a place. The place is the one of
the directory that the last name stands in, if there is one. -/
theorem placeOf_of_locateParent {parent : Place} {last : LastName}
    (h : t.locateParent path = .ok (parent, last)) (hname : last.name? = some name) :
    placeOf t.current path = step parent name := by
  obtain ⟨start, hstart, h⟩ := bind_eq_ok_iff.mp h
  obtain ⟨directory, hdirectory, h⟩ := bind_eq_ok_iff.mp h
  cases Except.ok.inj h
  obtain ⟨blanks, hpieces, hblanks, -⟩ := pieces_eq_lastName hname
  -- empty components lead nowhere
  have hstay (p : Place) : blanks.foldl step p = p := by
    clear hpieces
    induction blanks with
    | nil => rfl
    | cons blank rest ih =>
      rw [List.foldl_cons, hblanks blank List.mem_cons_self]
      exact ih fun b hb => hblanks b (List.mem_cons_of_mem _ hb)
  rw [placeOf, hpieces, ← startOf_eq_ok hstart, List.foldl_append, List.foldl_cons, hstay,
    ← follow_eq_foldl hdirectory]

/-- A path leads to a place by an ordinary name, which stands in a directory and has no slash after
it. -/
structure LeadsTo (t : Tree) (path : String) (place : Place) : Prop where
  unslashed : (lastName path).slashed = false
  named : ∃ parent name, t.locateParent path = .ok (parent, lastName path) ∧
    (lastName path).name? = some name ∧ name ≠ "." ∧ name ≠ ".." ∧
    t.follow parent [name] = .ok place

namespace LeadsTo

theorem locate (h : t.LeadsTo path place) : t.locate path = .ok place := by
  obtain ⟨parent, name, hparent, hname, -, -, hplace⟩ := h.named
  exact (locate_of_locateParent hparent hname h.unslashed).trans hplace

/-- The path leads there as long as directories stay. -/
theorem keep (h : t.LeadsTo path place) (hkeep : t.KeepsDirectories t') :
    t'.LeadsTo path place := by
  obtain ⟨parent, name, hparent, hname, hdot, hup, hplace⟩ := h.named
  exact ⟨h.unslashed, parent, name, hkeep.locateParent hparent, hname, hdot, hup,
    hkeep.follow hplace⟩

/-- A file that a path leads to so can be removed. -/
theorem remove_eq (h : t.LeadsTo path place) {serial : Nat} {content : List UInt8}
    (hfile : t.get? place = some (.file serial content)) :
    t.remove path = .ok (t.erase place) := by
  obtain ⟨parent, name, hparent, hname, hdot, hup, hplace⟩ := h.named
  refine bind_eq_ok_iff.mpr ⟨_, hparent, ?_⟩
  dsimp only
  rw [hname]
  split
  next heq => cases heq
  next heq => exact absurd (Option.some.inj heq) hdot
  next heq => exact absurd (Option.some.inj heq) hup
  next heq =>
    cases heq
    exact bind_eq_ok_iff.mpr ⟨place, hplace, by simp [hfile, h.unslashed]; rfl⟩

end LeadsTo

/-- A file that was made where nothing was. -/
theorem createNew_eq_ok {serial : Nat} (h : t.createNew path = .ok (serial, t')) :
    ∃ place, t.LeadsTo path place ∧ t.get? place = none ∧ serial = t.made ∧
      t' = { t.set place (.file t.made []) with made := t.made + 1 } := by
  obtain ⟨place, hlocate, h⟩ := bind_eq_ok_iff.mp h
  split at h
  · cases h
  next hfree =>
    have hfree : t.get? place = none := by simpa using hfree
    obtain ⟨⟨parent, last⟩, hparent, h⟩ := bind_eq_ok_iff.mp h
    cases lastName_of_locateParent hparent
    dsimp only at h
    split at h
    · cases h
    next name hname =>
      split at h
      · cases h
      next hordinary =>
        obtain ⟨hslashed, hdot, hup⟩ : (lastName path).slashed = false ∧ name ≠ "." ∧ name ≠ ".." :=
          by simpa using hordinary
        -- the file is made at the very place that was found free
        rw [locate_of_locateParent hparent hname hslashed] at hlocate
        obtain ⟨place', hplace, h⟩ := bind_eq_ok_iff.mp h
        cases Except.ok.inj (hplace.symm.trans hlocate)
        rw [hfree] at h
        cases Except.ok.inj h
        exact ⟨place, ⟨hslashed, parent, name, hparent, hname, hdot, hup, hplace⟩, hfree, rfl, rfl⟩

/-- A directory that was made in a directory, where nothing was. -/
theorem makeDirectory_eq_ok (h : t.makeDirectory path = .ok t') :
    ∃ parent name, (lastName path).name? = some name ∧
      placeOf t.current path = step parent name ∧ t.get? parent = some .directory ∧
      t.get? (step parent name) = none ∧ t' = t.set (step parent name) .directory := by
  obtain ⟨⟨parent, last⟩, hparent, h⟩ := bind_eq_ok_iff.mp h
  dsimp only at h
  split at h
  · cases h
  next name hname =>
    obtain ⟨place, hplace, h⟩ := bind_eq_ok_iff.mp h
    obtain ⟨hdirectory, -, hstop⟩ := follow_cons_eq_ok_iff.mp hplace
    cases Except.ok.inj hstop
    split at h
    · cases h
    next hfree =>
      exact ⟨parent, name, lastName_of_locateParent hparent ▸ hname,
        placeOf_of_locateParent hparent hname, hdirectory, by simpa using hfree,
        (Except.ok.inj h).symm⟩

/-- A file that was moved, onto a place that is no directory. -/
theorem rename_eq_ok {source target : String} (h : t.rename source target = .ok t') :
    ∃ origin place serial content, t.locate source = .ok origin ∧ t.locate target = .ok place ∧
      t.get? origin = some (.file serial content) ∧ t.get? place ≠ some .directory ∧
      t' = if origin = place then t else (t.erase origin).set place (.file serial content) := by
  unfold rename at h
  split at h
  · cases h
  next htarget =>
    obtain ⟨origin, horigin, h⟩ := bind_eq_ok_iff.mp h
    obtain ⟨place, hplace, h⟩ := bind_eq_ok_iff.mp h
    -- a directory as the target was refused at the start
    have hfile : t.get? place ≠ some .directory := by
      intro hdirectory
      exact htarget (by simp [isDirectory, hplace, hdirectory, bind, Except.bind, pure, Except.pure,
        Except.toOption])
    split at h
    · cases h
    · cases h
    next serial content hget =>
      refine ⟨origin, place, serial, content, horigin, hplace, hget, hfile, ?_⟩
      split at h
      next hsame => rw [if_pos hsame]; exact (Except.ok.inj h).symm
      next hdiffer => rw [if_neg hdiffer]; exact (Except.ok.inj h).symm

end Tree

end CodeEmission
