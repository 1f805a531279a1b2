import CodeEmission.Proofs.Files.Behaviour
import CodeEmission.Proofs.Files.Operations

/-!
# Writing a File in One Step

What an atomic write leaves of a tree, whichever of its steps fail. The directories on the way are
made first. Then a new file is made, filled and moved onto the path, or removed if that fails.

* `Extends`: a tree to which only directories were added.
* `Ends` and `ends_of_writeAtomic`: the four ways in which a write ends after the directories were
  made.
* `Written` and `written_of_writeAtomic`: what a write that succeeded did. The file reads as the
  data (`Written.read`), and files at other places read as before (`Written.read_of_ne`).
-/

namespace CodeEmission.Tree

variable {t t' : Tree} {path temporary : String} {place free : Place} {data : List UInt8}

/-! ## Directories on the way -/

/-- A tree to which only directories were added. -/
structure Extends (t t' : Tree) : Prop where
  current : t'.current = t.current
  made : t.made ≤ t'.made
  kept : ∀ q entry, t.get? q = some entry → t'.get? q = some entry
  added : ∀ q, t.get? q = none → t'.get? q = none ∨ t'.get? q = some .directory

namespace Extends

theorem refl (t : Tree) : t.Extends t :=
  ⟨rfl, Nat.le_refl _, fun _ _ h => h, fun _ h => .inl h⟩

theorem trans {t₁ t₂ t₃ : Tree} (h : t₁.Extends t₂) (h' : t₂.Extends t₃) : t₁.Extends t₃ where
  current := h'.current.trans h.current
  made := Nat.le_trans h.made h'.made
  kept q entry hq := h'.kept q entry (h.kept q entry hq)
  added q hq := by
    rcases h.added q hq with hnone | hdirectory
    · exact h'.added q hnone
    · exact .inr (h'.kept q _ hdirectory)

theorem of_set (hfree : t.get? place = none) : t.Extends (t.set place .directory) where
  current := rfl
  made := Nat.le_refl _
  kept q entry hq := by
    rw [get?_set_of_ne t (ne_of_free hfree hq), hq]
  added q hq := by
    by_cases hsame : q = place
    · subst hsame
      exact .inr (get?_set_self t (root_not_free hfree) _)
    · exact .inl (by rw [get?_set_of_ne t hsame, hq])

/-- What holds nothing held nothing before. -/
theorem get?_eq_none (h : t.Extends t') (hfree : t'.get? place = none) : t.get? place = none := by
  cases hget : t.get? place with
  | none => rfl
  | some entry => exact absurd rfl (ne_of_free hfree (h.kept place entry hget))

theorem sound (h : t.Extends t') (ht : t.Sound) : t'.Sound := by
  intro q serial content hq
  refine Nat.lt_of_lt_of_le ?_ h.made
  cases hbefore : t.get? q with
  | some entry =>
    rw [h.kept q entry hbefore] at hq
    exact ht q serial content (hbefore.trans hq)
  | none => rcases h.added q hbefore with hnone | hdirectory <;> simp_all

end Extends

section

variable {σ : Type} {tree : σ → Tree} {fs : FileSystem (StateM σ) Nat} {s s' : σ}

/-- Directories are made one after another up to the first failure. What holds of every tree and
itself, and extends over the making of one of the directories, holds of the trees before and after
that. -/
theorem induction_makeDirectories (R : Tree → Tree → Prop) (hfs : fs.WorksOn tree)
    {paths : List String} {result : Except FileError Unit} (refl : ∀ t, R t t)
    (make : ∀ path ∈ paths, ∀ t₁ t₂ t₃, t₁.makeDirectory path = .ok t₂ → R t₂ t₃ → R t₁ t₃)
    (h : (fs.makeDirectories paths).run.run s = (result, s')) : R (tree s) (tree s') := by
  induction paths generalizing s with
  | nil =>
    cases h
    exact refl _
  | cons path inner ih =>
    have ih {s₁ : σ} := @ih s₁ fun p hp => make p (List.mem_cons_of_mem _ hp)
    rw [FileSystem.run_makeDirectories_cons] at h
    have hsame := (hfs.isDirectory path).of_question s
    cases hfound : (fs.isDirectory path).run s with
    | mk found s₁ =>
      rw [hfound] at h hsame
      rw [← hsame]
      match found with
      | .ok true => exact ih h
      | .ok false =>
        cases h
        exact refl _
      | .error _ =>
        dsimp only at h
        cases hmade : (fs.makeDirectory path).run s₁ with
        | mk made s₂ =>
          rw [hmade] at h
          cases made with
          | error cause =>
            cases h
            rw [(hfs.makeDirectory path).of_error hmade]
            exact refl _
          | ok _ =>
            exact make path List.mem_cons_self _ _ _ ((hfs.makeDirectory path).of_done hmade)
              (ih h)

/-- Making directories adds directories, also if it fails after some of them. -/
theorem extends_of_makeDirectories (hfs : fs.WorksOn tree) {paths : List String}
    {result : Except FileError Unit}
    (h : (fs.makeDirectories paths).run.run s = (result, s')) : (tree s).Extends (tree s') := by
  refine induction_makeDirectories Extends hfs Extends.refl ?_ h
  intro path _ t₁ t₂ t₃ hmade hrest
  obtain ⟨parent, name, -, -, -, hfree, rfl⟩ := makeDirectory_eq_ok hmade
  exact (Extends.of_set hfree).trans hrest

/-! ## The new file -/

/-- Filling a file and moving it has moved it with all of the data, or has failed with the file
where it was, whatever is in it then. -/
theorem fillAndMove_cases (hfs : fs.WorksOn tree) {serial : Nat} {result : Except FileError Unit}
    (h : (fs.fillAndMove serial temporary path data).run.run s = (result, s')) :
    result = .ok () ∧ ((tree s).append serial data).rename temporary path = .ok (tree s') ∨
      ∃ e bytes, result = .error e ∧ fs.FailedStep path data e ∧
        tree s' = (tree s).append serial bytes := by
  rw [FileSystem.run_fillAndMove] at h
  have hwrite := hfs.write serial data s
  cases hwritten : (fs.write serial data).run s with
  | mk written s₁ =>
    rw [hwritten] at h hwrite
    have hclose := hfs.tree_close serial s₁
    cases written with
    | error cause =>
      cases h
      obtain ⟨count, hwrite⟩ := hwrite
      exact .inr ⟨_, _, rfl, .write hwritten, hclose.trans hwrite⟩
    | ok _ =>
      dsimp only at h hwrite
      cases hclosed : (fs.close serial).run s₁ with
      | mk closed s₂ =>
        rw [hclosed] at h hclose
        have hfilled := hclose.trans hwrite
        cases closed with
        | error cause =>
          cases h
          exact .inr ⟨_, data, rfl, .close hclosed, hfilled⟩
        | ok _ =>
          dsimp only at h hfilled
          cases hmoved : (fs.rename temporary path).run s₂ with
          | mk moved s₃ =>
            rw [hmoved] at h
            cases moved with
            | error cause =>
              cases h
              have hsame := (hfs.rename temporary path).of_error hmoved
              exact .inr ⟨_, data, rfl, .rename hmoved, hsame.trans hfilled⟩
            | ok _ =>
              cases h
              rw [← hfilled]
              exact .inl ⟨rfl, (hfs.rename temporary path).of_done hmoved⟩

/-- A file that was made at a free place and filled. -/
def withNew (t : Tree) (place : Place) (data : List UInt8) : Tree :=
  { t.set place (.file t.made []) with made := t.made + 1 }.append t.made data

/-- No other file has the number of the new one, so no other is filled. -/
theorem get?_withNew (ht : t.Sound) (hfree : t.get? place = none) (data : List UInt8) (q : Place) :
    (t.withNew place data).get? q = if q = place then some (.file t.made data) else t.get? q := by
  have hmade : ({ t.set place (.file t.made []) with made := t.made + 1 } : Tree).get? q =
      (t.set place (.file t.made [])).get? q := by
    cases q <;> rfl
  rw [withNew, get?_append, hmade]
  by_cases hq : q = place
  · subst hq
    rw [get?_set_self t (root_not_free hfree), if_pos rfl]
    simp [Entry.append]
  · rw [get?_set_of_ne t hq, if_neg hq]
    cases hget : t.get? q with
    | none => rfl
    | some entry =>
      cases entry with
      | directory => rfl
      | file serial content =>
        have hserial := ht q serial content hget
        simp [Entry.append, Nat.ne_of_lt hserial]

theorem Sound.withNew (ht : t.Sound) (hfree : t.get? free = none) (data : List UInt8) :
    (t.withNew free data).Sound := by
  intro q serial content hq
  show serial < t.made + 1
  rw [get?_withNew ht hfree] at hq
  split at hq
  · cases hq
    exact Nat.lt_succ_self _
  · exact Nat.lt_succ_of_lt (ht q serial content hq)

theorem keepsDirectories_withNew (ht : t.Sound) (hfree : t.get? free = none)
    (data : List UInt8) : t.KeepsDirectories (t.withNew free data) := by
  refine ⟨rfl, fun q hq => ?_⟩
  rw [get?_withNew ht hfree, if_neg (ne_of_free hfree hq), hq]

/-- When the new file is removed, every place holds what it held. -/
theorem get?_erase_withNew (ht : t.Sound) (hfree : t.get? free = none) (data : List UInt8)
    (q : Place) : ((t.withNew free data).erase free).get? q = t.get? q := by
  by_cases hq : q = free
  · rw [hq, get?_erase_self _ (root_not_free hfree), hfree]
  · rw [get?_erase_of_ne _ hq, get?_withNew ht hfree, if_neg hq]

theorem remove_withNew (ht : t.Sound) (hleads : t.LeadsTo temporary free)
    (hfree : t.get? free = none) (data : List UInt8) :
    (t.withNew free data).remove temporary = .ok ((t.withNew free data).erase free) := by
  have hfile : (t.withNew free data).get? free = some (.file t.made data) := by
    rw [get?_withNew ht hfree, if_pos rfl]
  exact (hleads.keep (keepsDirectories_withNew ht hfree data)).remove_eq hfile

/-- The four ways in which a write can end after the directories on the way were made. -/
inductive Ends (fs : FileSystem (StateM σ) Nat) (tree : σ → Tree) (path : String)
    (data : List UInt8) (t : Tree) : Except (List FileError) Unit → σ → Prop
  /-- No new file was made. -/
  | refused {e : FileError} {s' : σ} (he : fs.FailedStep path data e) (hsame : tree s' = t) :
    Ends fs tree path data t (.error [e]) s'
  /-- The new file was filled and moved onto the path. -/
  | moved {temporary : String} {free : Place} {s' : σ} (hleads : t.LeadsTo temporary free)
    (hfree : t.get? free = none)
    (hmoved : (t.withNew free data).rename temporary path = .ok (tree s')) :
    Ends fs tree path data t (.ok ()) s'
  /-- The new file was not moved, and was removed. -/
  | removed {e : FileError} {temporary : String} {free : Place} {bytes : List UInt8} {s' : σ}
    (he : fs.FailedStep path data e) (hleads : t.LeadsTo temporary free)
    (hfree : t.get? free = none) (hremoved : tree s' = (t.withNew free bytes).erase free) :
    Ends fs tree path data t (.error [e]) s'
  /-- The new file was not moved, and could not be removed. -/
  | left {e : FileError} {temporary : String} {free : Place} {bytes : List UInt8} {s₁ s' : σ}
    {cause : FileCause} (he : fs.FailedStep path data e) (hleads : t.LeadsTo temporary free)
    (hfree : t.get? free = none) (hbytes : tree s₁ = t.withNew free bytes)
    (hfailed : (fs.remove temporary).run s₁ = (.error cause, s')) :
    Ends fs tree path data t
      (.error (if cause = .notFound then [e]
        else [e, { verb := "remove", paths := [temporary], cause }])) s'

/-- After the new file was made, it is moved, or removed, or it cannot be removed. -/
theorem ends_of_createNew (hfs : fs.WorksOn tree) (ht : t.Sound) {serial : Nat}
    {result : Except (List FileError) Unit}
    (hcreated : t.createNew temporary = .ok (serial, tree s))
    (h : (match (fs.fillAndMove serial temporary path data).run.run s with
      | (.ok (), s₁) => (.ok (), s₁)
      | (.error e, s₁) =>
        match (fs.removeIfExists temporary).run.run s₁ with
        | (.ok (), s₂) => (.error [e], s₂)
        | (.error e', s₂) => (.error [e, e'], s₂)) = (result, s')) :
    Ends fs tree path data t result s' := by
  obtain ⟨free, hleads, hfree, rfl, hnew⟩ := createNew_eq_ok hcreated
  have hwith (bytes : List UInt8) : (tree s).append t.made bytes = t.withNew free bytes := by
    rw [hnew]
    rfl
  cases hfilled : (fs.fillAndMove t.made temporary path data).run.run s with
  | mk moved s₁ =>
    rw [hfilled] at h
    rcases fillAndMove_cases hfs hfilled with ⟨rfl, hmoved⟩ | ⟨e, bytes, rfl, he, hbytes⟩
    · cases h
      exact .moved hleads hfree (hwith data ▸ hmoved)
    · dsimp only at h
      rw [hwith] at hbytes
      rw [FileSystem.run_removeIfExists] at h
      cases hremoved : (fs.remove temporary).run s₁ with
      | mk removed s₂ =>
        rw [hremoved] at h
        cases removed with
        | ok _ =>
          cases h
          have herased := (hfs.remove temporary).of_done hremoved
          rw [hbytes, remove_withNew ht hleads hfree] at herased
          exact .removed he hleads hfree (Except.ok.inj herased).symm
        | error cause =>
          have hends : Ends fs tree path data t (.error (if cause = .notFound then [e]
              else [e, { verb := "remove", paths := [temporary], cause }])) s₂ :=
            .left he hleads hfree hbytes hremoved
          by_cases hcause : cause = .notFound
          · subst hcause
            cases h
            exact hends
          · dsimp only at h
            rw [if_neg hcause] at h hends
            cases h
            exact hends

/-- A write makes the directories on the way and ends in one of the four ways. -/
theorem ends_of_writeAtomic (hfs : fs.WorksOn tree) (ht : (tree s).Sound)
    {result : Except (List FileError) Unit} (h : (fs.writeAtomic path data).run s = (result, s')) :
    ∃ made s₁, (fs.makeDirectories (Path.leading (Path.dir path))).run.run s = (made, s₁) ∧
      Ends fs tree path data (tree s₁) result s' := by
  rw [FileSystem.run_writeAtomic] at h
  cases hmade : (fs.makeDirectories (Path.leading (Path.dir path))).run.run s with
  | mk made s₁ =>
    rw [hmade] at h
    refine ⟨made, s₁, rfl, ?_⟩
    have hsound := (extends_of_makeDirectories hfs hmade).sound ht
    cases made with
    | error e =>
      cases h
      exact .refused (FileSystem.failedStep_of_makeDirectories hmade) rfl
    | ok _ =>
      have hfresh := hfs.freshPath (Path.dir path) s₁
      dsimp only at h
      cases hchosen : (fs.freshPath (Path.dir path)).run s₁ with
      | mk temporary s₂ =>
        rw [hchosen] at h hfresh
        dsimp only at h hfresh
        cases hcreated : (fs.createNew temporary).run s₂ with
        | mk created s₃ =>
          rw [hcreated] at h
          cases created with
          | error cause =>
            cases h
            have hsame := (hfs.createNew temporary).of_error hcreated
            exact .refused (.createNew hcreated) (hsame.trans hfresh)
          | ok serial =>
            have hnew := (hfs.createNew temporary).of_ok hcreated
            rw [hfresh] at hnew
            exact ends_of_createNew hfs hsound hnew h

/-! ## A write that succeeded -/

/-- What is true after a write that succeeded: the path leads to the data, and every other place
holds what it held, or a directory where there was nothing. -/
structure Written (t t' : Tree) (path : String) (data : List UInt8) : Prop where
  current : t'.current = t.current
  located : t'.locate path = .ok (placeOf t.current path)
  content : ∃ serial, t'.get? (placeOf t.current path) = some (.file serial data)
  noDirectory : t.get? (placeOf t.current path) ≠ some .directory
  kept : ∀ q entry, q ≠ placeOf t.current path → t.get? q = some entry → t'.get? q = some entry
  added : ∀ q, q ≠ placeOf t.current path → t.get? q = none →
    t'.get? q = none ∨ t'.get? q = some .directory
  sound : t'.Sound

/-- A new file that was moved onto a path. -/
theorem written_of_rename {temporary : String} {free : Place} (ht : t.Sound)
    (hfree : t.get? free = none) (hleads : t.LeadsTo temporary free)
    (h : (t.withNew free data).rename temporary path = .ok t') : t.Written t' path data := by
  have hget := get?_withNew ht hfree data
  have hkeep := keepsDirectories_withNew ht hfree data
  obtain ⟨origin, place, serial, content, horigin, hplace, hfile, hnot, hafter⟩ := rename_eq_ok h
  -- what is moved is the new file
  cases Except.ok.inj (horigin.symm.trans (hleads.keep hkeep).locate)
  rw [hget, if_pos rfl] at hfile
  cases hfile
  have hplaceOf : place = placeOf t.current path := (locate_eq_placeOf hplace).trans rfl
  have hplaceRoot : place ≠ [] := by
    rintro rfl
    exact hnot rfl
  -- the new file has left its place for that of the path, and all else is where it was
  have hget' (q : Place) : t'.get? q =
      if q = place then some (.file t.made data) else if q = free then none else t.get? q := by
    rw [hafter]
    by_cases hsame : free = place
    · subst hsame
      rw [if_pos rfl, hget]
      split <;> rfl
    · rw [if_neg hsame]
      by_cases hq : q = place
      · rw [if_pos hq, hq, get?_set_self _ hplaceRoot]
      · rw [if_neg hq, get?_set_of_ne _ hq]
        by_cases hq' : q = free
        · rw [if_pos hq', hq', get?_erase_self _ (root_not_free hfree)]
        · rw [if_neg hq', get?_erase_of_ne _ hq', hget, if_neg hq']
  have hcurrent : t'.current = t.current := by
    rw [hafter]
    split <;> rfl
  have hmade : t'.made = t.made + 1 := by
    rw [hafter]
    split <;> rfl
  have hnoDirectory : t.get? place ≠ some .directory := by
    intro hplaceDirectory
    rw [hget, if_neg (ne_of_free hfree hplaceDirectory)] at hnot
    exact hnot hplaceDirectory
  -- neither of the two places was a directory, so the path leads where it led
  have hkeep' : (t.withNew free data).KeepsDirectories t' := by
    refine ⟨hcurrent, fun q hq => ?_⟩
    have hne : q ≠ place := by
      rintro rfl
      exact hnot hq
    rw [hget] at hq
    split at hq
    · cases hq
    next hne' => rw [hget', if_neg hne, if_neg hne', hq]
  subst hplaceOf
  refine ⟨hcurrent, hkeep'.locate hplace, ⟨t.made, by rw [hget', if_pos rfl]⟩, hnoDirectory,
    ?_, ?_, ?_⟩
  · intro q entry hne hq
    rw [hget', if_neg hne, if_neg (ne_of_free hfree hq), hq]
  · intro q hne hq
    rw [hget', if_neg hne]
    split
    · exact .inl rfl
    · exact .inl hq
  · intro q serial content hq
    rw [hmade]
    rw [hget'] at hq
    split at hq
    · cases hq
      exact Nat.lt_succ_self _
    · split at hq
      · cases hq
      · exact Nat.lt_succ_of_lt (ht q serial content hq)

/-- Directories that were made on the way belong to what a write may add. -/
theorem Extends.written {t₁ : Tree} (h : t.Extends t₁) (hw : t₁.Written t' path data) :
    t.Written t' path data := by
  have hplace : placeOf t₁.current path = placeOf t.current path := by rw [h.current]
  obtain ⟨hcurrent, hlocated, hcontent, hnot, hkept, hadded, hsound⟩ := hw
  rw [hplace] at hlocated hcontent hnot hkept hadded
  refine ⟨hcurrent.trans h.current, hlocated, hcontent, fun hd => hnot (h.kept _ _ hd),
    ?_, ?_, hsound⟩
  · exact fun q entry hne hq => hkept q entry hne (h.kept q entry hq)
  · intro q hne hq
    rcases h.added q hq with hnone | hdirectory
    · exact hadded q hne hnone
    · exact .inr (hkept q _ hne hdirectory)

/-- What a write in one step leaves behind, if it succeeds, on any file system. -/
theorem written_of_worksOn (hfs : fs.WorksOn tree) (ht : (tree s).Sound)
    (h : (fs.writeAtomic path data).run s = (.ok (), s')) :
    (tree s).Written (tree s') path data := by
  obtain ⟨made, s₁, hmade, hends⟩ := ends_of_writeAtomic hfs ht h
  have hextends := extends_of_makeDirectories hfs hmade
  cases hends with
  | moved hleads hfree hmoved =>
    exact hextends.written (written_of_rename (hextends.sound ht) hfree hleads hmoved)

end

/-- What a write in one step leaves behind, if it succeeds. -/
theorem written_of_writeAtomic {faults : Faults} (ht : t.Sound)
    (h : ((system faults).writeAtomic path data).run t = (.ok (), t')) :
    t.Written t' path data :=
  written_of_worksOn (worksOn_system faults) ht h

/-! ## Reading -/

namespace Written

/-- A file that was written reads as the data. -/
theorem read (h : t.Written t' path data) : t'.read path = .ok data := by
  obtain ⟨serial, hcontent⟩ := h.content
  exact read_eq_ok_iff.mpr ⟨_, serial, h.located, hcontent⟩

theorem keepsDirectories (h : t.Written t' path data) : t.KeepsDirectories t' := by
  refine ⟨h.current, fun q hq => h.kept q _ ?_ hq⟩
  rintro rfl
  exact h.noDirectory hq

/-- Other files read as before. -/
theorem read_of_ne (h : t.Written t' path data) {other : String} {content : List UInt8}
    (hne : placeOf t.current other ≠ placeOf t.current path) (hread : t.read other = .ok content) :
    t'.read other = .ok content := by
  obtain ⟨place, serial, hlocate, hget⟩ := read_eq_ok_iff.mp hread
  refine read_eq_ok_iff.mpr ⟨place, serial, h.keepsDirectories.locate hlocate, h.kept _ _ ?_ hget⟩
  rwa [locate_eq_placeOf hlocate]

end Written

end CodeEmission.Tree
