import CodeEmission.Proofs.Files.AtomicWrite
import CodeEmission.Proofs.Files.Places
import Mathlib.Data.List.Basic

/-!
# Atomic Writes Are All or Nothing

A write either succeeds, and then the path has the data and no other file has changed, or it fails,
and then no file has changed. The temporary file is left behind only where it could not be removed,
and that is told. This holds on any file system whose operations have their effects or fail, and
for failures of any of the steps.

* `content?`: the content of the file at a place.
* `Spares`: a tree that was changed by new directories, and by what stands at some new places.
* `wellFormed_of_writeAtomic`: a write leaves a tree to which the next write can be applied.
* `writeAtomic_all_or_nothing`: the two outcomes of a write.
-/

namespace CodeEmission.Tree

variable {t t' : Tree} {path : String} {data : List UInt8} {p q : Place}

/-- The content of the file at a place, if there is one. -/
def content? (t : Tree) (p : Place) : Option (List UInt8) :=
  match t.get? p with
  | some (.file _ content) => some content
  | _ => none

theorem content?_eq_some_iff {content : List UInt8} :
    t.content? p = some content ↔ ∃ serial, t.get? p = some (.file serial content) := by
  unfold content?
  split
  next hget => simp [hget]
  next hother =>
    constructor
    · intro h
      cases h
    · rintro ⟨serial, hget⟩
      exact absurd hget (hother serial content)

section

variable (hkept : ∀ entry, t.get? q = some entry → t'.get? q = some entry)
  (hadded : t.get? q = none → t'.get? q = none ∨ t'.get? q = some .directory)

include hkept hadded

/-- Where only a directory can be new, there are the same files. -/
theorem get?_eq_file_iff {serial : Nat} {content : List UInt8} :
    t'.get? q = some (.file serial content) ↔ t.get? q = some (.file serial content) := by
  constructor
  · intro hfile
    cases hget : t.get? q with
    | some entry => rw [← hkept entry hget, hfile]
    | none =>
      rcases hadded hget with hnone | hdirectory
      · rw [hnone] at hfile
        cases hfile
      · rw [hdirectory] at hfile
        cases hfile
  · exact hkept _

theorem content?_eq_of_kept : t'.content? q = t.content? q := by
  refine Option.ext fun content => ?_
  simp only [content?_eq_some_iff, get?_eq_file_iff hkept hadded]

end

/-! ## What a failed write spares -/

/-- Everything that was in a tree is still there, and only directories are new, except at the given
places. Where a file was at the path there are no new directories. -/
structure Spares (t t' : Tree) (path : String) (isNew : Place → Prop) : Prop where
  current : t'.current = t.current
  kept : ∀ q entry, t.get? q = some entry → t'.get? q = some entry
  added : ∀ q, ¬isNew q → t.get? q = none → t'.get? q = none ∨ t'.get? q = some .directory
  directories : ∀ serial content, t.get? (placeOf t.current path) = some (.file serial content) →
    ∀ q, t'.get? q = some .directory → t.get? q = some .directory

namespace Spares

variable {isNew : Place → Prop}

theorem content?_eq (h : t.Spares t' path isNew) (hq : ¬isNew q) :
    t'.content? q = t.content? q :=
  content?_eq_of_kept (h.kept q) (h.added q hq)

/-- The path reads as before. -/
theorem read_iff (h : t.Spares t' path isNew) (hpath : ¬isNew (placeOf t.current path))
    {content : List UInt8} : t'.read path = .ok content ↔ t.read path = .ok content := by
  rw [read_eq_ok_iff, read_eq_ok_iff]
  constructor
  · rintro ⟨place, serial, hlocate, hfile⟩
    have hplace := locate_eq_placeOf hlocate
    rw [h.current] at hplace
    subst hplace
    rw [get?_eq_file_iff (h.kept _) (h.added _ hpath)] at hfile
    -- where there was a file, the directories on the way were there as well
    have hkeep : t'.KeepsDirectories t := ⟨h.current.symm, h.directories serial content hfile⟩
    exact ⟨_, serial, hkeep.locate hlocate, hfile⟩
  · rintro ⟨place, serial, hlocate, hfile⟩
    have hkeep : t.KeepsDirectories t' := ⟨h.current, fun q => h.kept q _⟩
    exact ⟨place, serial, hkeep.locate hlocate, h.kept place _ hfile⟩

end Spares

/-- Other files have the contents that they had. -/
theorem Written.content?_of_ne (h : t.Written t' path data) (hq : q ≠ placeOf t.current path) :
    t'.content? q = t.content? q :=
  content?_eq_of_kept (fun entry => h.kept q entry hq) (h.added q hq)

section

variable {σ : Type} {tree : σ → Tree} {fs : FileSystem (StateM σ) Nat} {s s₁ s' : σ}
  {made : Except FileError Unit}

/-- On the way to a file no directory is made. -/
theorem made_nothing (hfs : fs.WorksOn tree) (hclosed : (tree s).Closed) {serial : Nat}
    {content : List UInt8}
    (hfile : (tree s).get? (placeOf (tree s).current path) = some (.file serial content))
    (hmade : (fs.makeDirectories (Path.leading (Path.dir path))).run.run s = (made, s₁)) :
    tree s₁ = tree s := by
  refine induction_makeDirectories (fun t t' => t = tree s → t' = tree s) hfs (fun _ h => h) ?_
    hmade rfl
  rintro part hpart t₁ t₂ t₃ hmake - rfl
  exact absurd hmake (hclosed.makeDirectory_ne_ok hfile hpart t₂)

/-- A tree that is as it was when the directories were made, but for some new places. -/
theorem spares_of_makeDirectories (hfs : fs.WorksOn tree) (hclosed : (tree s).Closed)
    (hmade : (fs.makeDirectories (Path.leading (Path.dir path))).run.run s = (made, s₁))
    {isNew : Place → Prop} (hcurrent : t'.current = (tree s₁).current)
    (hsame : ∀ q, ¬isNew q → t'.get? q = (tree s₁).get? q)
    (hnew : ∀ q, isNew q → (tree s₁).get? q = none ∧ t'.get? q ≠ some .directory) :
    (tree s).Spares t' path isNew := by
  have hextends := extends_of_makeDirectories hfs hmade
  refine ⟨hcurrent.trans hextends.current, fun q entry hq => ?_, fun q hold hq => ?_, ?_⟩
  · have hq := hextends.kept q entry hq
    rwa [hsame q fun hisNew => ne_of_free (hnew q hisNew).1 hq rfl]
  · rw [hsame q hold]
    exact hextends.added q hq
  · intro serial content hfile q hq
    have hold : ¬isNew q := fun hisNew => (hnew q hisNew).2 hq
    rwa [hsame q hold, made_nothing hfs hclosed hfile hmade] at hq

/-- Nothing but directories is new where every place holds what it held when they were made. -/
theorem spares_of_same (hfs : fs.WorksOn tree) (hclosed : (tree s).Closed)
    (hmade : (fs.makeDirectories (Path.leading (Path.dir path))).run.run s = (made, s₁))
    (hsame : ∀ q, t'.get? q = (tree s₁).get? q) (hcurrent : t'.current = (tree s₁).current) :
    (tree s).Spares t' path fun _ => False :=
  spares_of_makeDirectories hfs hclosed hmade hcurrent (fun q _ => hsame q) fun _ => False.elim

/-- A new file that is left is new at its place alone. -/
theorem spares_withNew {free : Place} (hfs : fs.WorksOn tree) (ht : (tree s).WellFormed)
    (hmade : (fs.makeDirectories (Path.leading (Path.dir path))).run.run s = (made, s₁))
    (hfree : (tree s₁).get? free = none) (bytes : List UInt8) :
    (tree s).Spares ((tree s₁).withNew free bytes) path (· = free) := by
  have hsound := (extends_of_makeDirectories hfs hmade).sound ht.sound
  refine spares_of_makeDirectories hfs ht.closed hmade rfl (fun q hq => ?_) ?_
  · rw [get?_withNew hsound hfree, if_neg hq]
  · rintro q rfl
    refine ⟨hfree, ?_⟩
    rw [get?_withNew hsound hfree, if_pos rfl]
    simp

/-! ## Both outcomes -/

theorem closed_withNew {t : Tree} {temporary : String} {free : Place} (ht : t.WellFormed)
    (hleads : t.LeadsTo temporary free) (hfree : t.get? free = none) (data : List UInt8) :
    (t.withNew free data).Closed := by
  obtain ⟨name, parent, rfl, hparent⟩ := ht.closed.exists_parent hleads.locate (by simp [hfree])
  have hnot : t.get? (name :: parent) ≠ some .directory := by simp [hfree]
  refine (ht.closed.set hparent hnot (.file t.made data)).of_get?_eq fun q => ?_
  rw [get?_withNew ht.sound hfree]
  split
  next hq => rw [hq, get?_set_self t (root_not_free hfree)]
  next hq => rw [get?_set_of_ne t hq]

/-- A write leaves a well-formed tree, whatever fails. -/
theorem wellFormed_of_writeAtomic (hfs : fs.WorksOn tree) (ht : (tree s).WellFormed)
    {result : Except (List FileError) Unit} (h : (fs.writeAtomic path data).run s = (result, s')) :
    (tree s').WellFormed := by
  obtain ⟨made, s₁, hmade, hends⟩ := ends_of_writeAtomic hfs ht.sound h
  have hextends := extends_of_makeDirectories hfs hmade
  have hclosed : (tree s₁).Closed :=
    induction_makeDirectories (fun t t' => t.Closed → t'.Closed) hfs (fun _ hclosed => hclosed)
      (fun _ _ _ _ _ hmake hrest hclosed => hrest (hclosed.makeDirectory hmake)) hmade ht.closed
  have ht₁ : (tree s₁).WellFormed := ⟨hextends.sound ht.sound, hclosed⟩
  cases hends with
  | refused _ hsame => rwa [hsame]
  | moved hleads hfree hmoved =>
    exact ⟨(written_of_rename ht₁.sound hfree hleads hmoved).sound,
      (closed_withNew ht₁ hleads hfree data).rename hmoved⟩
  | removed _ hleads hfree hremoved =>
    rw [hremoved]
    refine ⟨(ht₁.sound.withNew hfree _).erase (root_not_free hfree),
      (closed_withNew ht₁ hleads hfree _).erase ?_⟩
    rw [get?_withNew ht₁.sound hfree, if_pos rfl]
    simp
  | left _ hleads hfree hbytes hfailed =>
    rw [(hfs.remove _).of_error hfailed, hbytes]
    exact ⟨ht₁.sound.withNew hfree _, closed_withNew ht₁ hleads hfree _⟩

/-- A write is all or nothing, on any file system over a well-formed tree whose operations have
their effects or fail, whichever of them fail. If it succeeds, the path reads as the data, and any
other place has the file that it had, so that no temporary file is left. If it fails, a step has
failed. If it tells that failure alone, the path reads as before, and any place has the file that it
had. It tells a second failure if the temporary file could not be removed. That file is left then,
at a place that had none. Any other place has the file that it had, and the path reads as before
unless it stands for that very place. -/
theorem writeAtomic_all_or_nothing (hfs : fs.WorksOn tree) (hmissing : fs.TellsMissing tree)
    (ht : (tree s).WellFormed) {result : Except (List FileError) Unit}
    (h : (fs.writeAtomic path data).run s = (result, s')) :
    (result = .ok () →
      (tree s').read path = .ok data ∧
      ∀ q, q ≠ placeOf (tree s).current path → (tree s').content? q = (tree s).content? q) ∧
    ∀ es, result = .error es → ∃ e, fs.FailedStep path data e ∧
      (es = [e] ∧
        (∀ content, (tree s').read path = .ok content ↔ (tree s).read path = .ok content) ∧
        (∀ q, (tree s').content? q = (tree s).content? q) ∨
      ∃ temporary cause s₁,
        es = [e, { verb := "remove", paths := [temporary], cause }] ∧
        (fs.remove temporary).run s₁ = (.error cause, s') ∧
        (tree s).content? (placeOf (tree s).current temporary) = none ∧
        (∀ q, q ≠ placeOf (tree s).current temporary →
          (tree s').content? q = (tree s).content? q) ∧
        (placeOf (tree s).current temporary ≠ placeOf (tree s).current path →
          ∀ content, (tree s').read path = .ok content ↔ (tree s).read path = .ok content)) := by
  obtain ⟨made, s₁, hmade, hends⟩ := ends_of_writeAtomic hfs ht.sound h
  have hextends := extends_of_makeDirectories hfs hmade
  have hsound := hextends.sound ht.sound
  cases hends with
  | refused he hsame =>
    have hspares := spares_of_same hfs ht.closed hmade (fun _ => rfl) rfl
    rw [← hsame] at hspares
    refine ⟨nofun, fun es hes => ⟨_, he, .inl ?_⟩⟩
    cases hes
    exact ⟨rfl, fun _ => hspares.read_iff not_false, fun _ => hspares.content?_eq not_false⟩
  | moved hleads hfree hmoved =>
    have hwritten := hextends.written (written_of_rename hsound hfree hleads hmoved)
    exact ⟨fun _ => ⟨hwritten.read, fun q => hwritten.content?_of_ne⟩, nofun⟩
  | @removed e _ free bytes _ he hleads hfree hremoved =>
    have hspares :=
      spares_of_same hfs ht.closed hmade (get?_erase_withNew hsound hfree bytes) rfl
    rw [← hremoved] at hspares
    refine ⟨nofun, fun es hes => ⟨_, he, .inl ?_⟩⟩
    cases hes
    exact ⟨rfl, fun _ => hspares.read_iff not_false, fun _ => hspares.content?_eq not_false⟩
  | @left e temporary free bytes s₂ _ cause he hleads hfree hbytes hfailed =>
    have hcause : cause ≠ .notFound := by
      -- the file is there, so removing it cannot fail for that
      rintro rfl
      have hgone := hmissing temporary s₂ s' hfailed
      rw [hbytes, remove_withNew hsound hleads hfree] at hgone
      cases hgone
    have hspares := spares_withNew hfs ht hmade hfree bytes
    rw [← hbytes, ← (hfs.remove temporary).of_error hfailed] at hspares
    have hplace : free = placeOf (tree s).current temporary := by
      rw [← hextends.current]
      exact locate_eq_placeOf hleads.locate
    subst hplace
    have hbefore : (tree s).content? (placeOf (tree s).current temporary) = none := by
      rw [content?, hextends.get?_eq_none hfree]
    refine ⟨nofun, fun es hes => ⟨e, he, .inr ?_⟩⟩
    rw [if_neg hcause] at hes
    cases hes
    exact ⟨temporary, cause, s₂, rfl, hfailed, hbefore, fun q => hspares.content?_eq,
      fun hne content => hspares.read_iff hne.symm⟩

end

/-- A working directory with one file. -/
def oneOutputTree : Tree :=
  { entries := [(["out.s", "work"], .file 0 [1]), (["work"], .directory)]
    current := ["work"]
    made := 1 }

/-- The file is left as it is when moving fails, and when writing and removing both do. A new file
in a new directory has the data. -/
theorem failed_writes_spare_output :
    oneOutputTree.WellFormed ∧
    (∃ t', ((system { rename? := some .busy }).writeAtomic "out.s" [2, 3]).run oneOutputTree =
        (.error [{ verb := "rename", paths := ["./.mcemit-0", "out.s"], cause := .busy }], t') ∧
      t'.read "out.s" = .ok [1] ∧ ∀ q, t'.content? q = oneOutputTree.content? q) ∧
    (∃ t', ((system { write? := some (1, .other "disk full"), remove? := some .busy }).writeAtomic
          "out.s" [2, 3]).run oneOutputTree =
        (.error [{ verb := "write", paths := ["./.mcemit-0"], cause := .other "disk full" },
          { verb := "remove", paths := ["./.mcemit-0"], cause := .busy }], t') ∧
      t'.read "out.s" = .ok [1]) ∧
    ∃ t', ((system {}).writeAtomic "asm/out.s" [2, 3]).run oneOutputTree = (.ok (), t') ∧
      t'.read "asm/out.s" = .ok [2, 3] := by
  have ht : oneOutputTree.WellFormed :=
    ⟨sound_of_entries (by decide), closed_of_entries (by decide)⟩
  have hbefore : oneOutputTree.read "out.s" = .ok [1] := by decide +kernel
  have hspared {faults : Faults} (hremove : faults.remove? ≠ some .notFound) {path : String}
      {es : List FileError} {t' : Tree}
      (h : ((system faults).writeAtomic path [2, 3]).run oneOutputTree = (.error es, t')) :=
    (writeAtomic_all_or_nothing (worksOn_system faults) (tellsMissing_system hremove) ht h).2 es rfl
  refine ⟨ht, ?_, ?_, ?_⟩
  · have hrun : ((system { rename? := some .busy }).writeAtomic "out.s" [2, 3]).run oneOutputTree =
        (.error [{ verb := "rename", paths := ["./.mcemit-0", "out.s"], cause := .busy }], _) :=
      Prod.ext (by decide +kernel) rfl
    refine ⟨_, hrun, ?_⟩
    obtain ⟨e, -, ⟨-, hread, hcontent⟩ | ⟨temporary, cause, s₁, hes, -⟩⟩ :=
      hspared (by decide) hrun
    · exact ⟨(hread [1]).mpr hbefore, hcontent⟩
    · cases hes
  · have hrun :
        ((system { write? := some (1, .other "disk full"), remove? := some .busy }).writeAtomic
          "out.s" [2, 3]).run oneOutputTree =
        (.error [{ verb := "write", paths := ["./.mcemit-0"], cause := .other "disk full" },
          { verb := "remove", paths := ["./.mcemit-0"], cause := .busy }], _) :=
      Prod.ext (by decide +kernel) rfl
    refine ⟨_, hrun, ?_⟩
    obtain ⟨e, -, ⟨hes, -⟩ | ⟨temporary, cause, s₁, hes, -, -, -, hread⟩⟩ :=
      hspared (by decide) hrun
    · cases hes
    · cases hes
      exact (hread (by decide +kernel) [1]).mpr hbefore
  · have hrun : ((system {}).writeAtomic "asm/out.s" [2, 3]).run oneOutputTree = (.ok (), _) :=
      Prod.ext (by decide +kernel) rfl
    have hwritten := (writeAtomic_all_or_nothing (worksOn_system {})
      (tellsMissing_system (by decide)) ht hrun).1 rfl
    exact ⟨_, hrun, hwritten.1⟩

end CodeEmission.Tree
