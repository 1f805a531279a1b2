import CodeEmission.Files.Tree
import CodeEmission.Proofs.Success

/-!
# File Systems on a Tree

The operations of a file system over any state that shows a tree of files. Each of them has its
effect on the tree or fails, and may fail at any time: that depends on the state, of which the tree
need not be all.

* `Does`: an operation that has its effect, or fails and leaves the tree as it is.
* `FileSystem.WorksOn`: a file system all of whose operations behave so. A write that fails may
  leave a part of the data.
* `FileSystem.TellsMissing`: a file system that tells when there is nothing to remove.
* `Tree.worksOn_system`: the operations of a tree behave so, whichever of them are told to fail.
* `FileSystem.run_makeDirectories_cons`, `run_fillAndMove`, `run_removeIfExists` and
  `run_writeAtomic`: what the steps of an atomic write come to, one equation for each.
* `FileSystem.FailedStep`: the failures that a write tells.
-/

namespace CodeEmission

variable {σ α : Type} {tree : σ → Tree} {s s' : σ}

/-- An operation has its effect on the tree that a state shows, or fails and leaves that tree as it
is. -/
def Does (tree : σ → Tree) (act : StateM σ (Except FileCause α))
    (effect : Tree → Except FileCause (α × Tree)) : Prop :=
  ∀ s, match act.run s with
    | (.ok a, s') => effect (tree s) = .ok (a, tree s')
    | (.error _, s') => tree s' = tree s

namespace Does

variable {act : StateM σ (Except FileCause α)} {effect : Tree → Except FileCause (α × Tree)}

theorem of_ok (h : Does tree act effect) {a : α} (hrun : act.run s = (.ok a, s')) :
    effect (tree s) = .ok (a, tree s') := by
  have hs := h s
  rwa [hrun] at hs

theorem of_error (h : Does tree act effect) {cause : FileCause}
    (hrun : act.run s = (.error cause, s')) : tree s' = tree s := by
  have hs := h s
  rwa [hrun] at hs

/-- What an operation without a result did. -/
theorem of_done {act : StateM σ (Except FileCause Unit)} {effect : Tree → Except FileCause Tree}
    (h : Does tree act fun t => (effect t).map ((), ·)) {u : Unit}
    (hrun : act.run s = (.ok u, s')) : effect (tree s) = .ok (tree s') := by
  obtain ⟨t, heffect, hpair⟩ := map_eq_ok_iff.mp (h.of_ok hrun)
  cases hpair
  exact heffect

/-- A question leaves the tree as it is. -/
theorem of_question {answer : Tree → Except FileCause α}
    (h : Does tree act fun t => (answer t).map (·, t)) (s : σ) : tree (act.run s).2 = tree s := by
  cases hrun : act.run s with
  | mk result s' =>
    cases result with
    | error cause => exact h.of_error hrun
    | ok a =>
      obtain ⟨b, -, hpair⟩ := map_eq_ok_iff.mp (h.of_ok hrun)
      exact (congrArg Prod.snd hpair).symm

end Does

namespace FileSystem

/-- The operations of a file system have their effects on the tree that a state shows, or fail. -/
structure WorksOn (fs : FileSystem (StateM σ) Nat) (tree : σ → Tree) : Prop where
  workingDirectory (s : σ) : (fs.workingDirectory.run s).1 = Tree.pathOf (tree s).current ∧
    tree (fs.workingDirectory.run s).2 = tree s
  isDirectory (path : String) :
    Does tree (fs.isDirectory path) fun t => (t.isDirectory path).map (·, t)
  read (path : String) : Does tree (fs.read path) fun t => (t.read path).map (·, t)
  create (path : String) : Does tree (fs.create path) fun t => t.create path
  createNew (path : String) : Does tree (fs.createNew path) fun t => t.createNew path
  freshPath (directory : String) (s : σ) : tree ((fs.freshPath directory).run s).2 = tree s
  /-- A write that fails has added the data up to some byte. -/
  write (serial : Nat) (data : List UInt8) (s : σ) :
    match (fs.write serial data).run s with
    | (.ok (), s') => tree s' = (tree s).append serial data
    | (.error _, s') => ∃ count, tree s' = (tree s).append serial (data.take count)
  close (serial : Nat) : Does tree (fs.close serial) fun t => .ok ((), t)
  makeDirectory (path : String) :
    Does tree (fs.makeDirectory path) fun t => (t.makeDirectory path).map ((), ·)
  rename (source target : String) :
    Does tree (fs.rename source target) fun t => (t.rename source target).map ((), ·)
  remove (path : String) : Does tree (fs.remove path) fun t => (t.remove path).map ((), ·)

/-- A path is said not to exist only where there is nothing to remove. -/
def TellsMissing (fs : FileSystem (StateM σ) Nat) (tree : σ → Tree) : Prop :=
  ∀ path s s', (fs.remove path).run s = (.error .notFound, s') →
    (tree s).remove path = .error .notFound

variable {fs : FileSystem (StateM σ) Nat}

theorem WorksOn.tree_close (hfs : fs.WorksOn tree) (serial : Nat) (s : σ) :
    tree ((fs.close serial).run s).2 = tree s := by
  have hclose : Does tree (fs.close serial) fun t => (Except.ok ()).map (·, t) := hfs.close serial
  exact hclose.of_question s

/-! ## What the steps come to -/

theorem run_attempt (verb : String) (paths : List String) (act : StateM σ (Except FileCause α))
    (s : σ) :
    (attempt verb paths act).run.run s =
      match act.run s with
      | (.ok a, s') => (.ok a, s')
      | (.error cause, s') => (.error { verb, paths, cause }, s') := by
  show (act >>= _ : StateM σ (Except FileError α)).run s = _
  rw [run_bind_eq]
  obtain ⟨result, s'⟩ := act.run s
  cases result <;> rfl

theorem run_makeDirectories_cons (path : String) (inner : List String) (s : σ) :
    (fs.makeDirectories (path :: inner)).run.run s =
      match (fs.isDirectory path).run s with
      | (.ok true, s₁) => (fs.makeDirectories inner).run.run s₁
      | (.ok false, s₁) =>
        (.error { verb := "mkdir", paths := [path], cause := .notDirectory }, s₁)
      | (.error _, s₁) =>
        match (fs.makeDirectory path).run s₁ with
        | (.ok (), s₂) => (fs.makeDirectories inner).run.run s₂
        | (.error cause, s₂) => (.error { verb := "mkdir", paths := [path], cause }, s₂) := by
  rw [makeDirectories, run_run_lift_bind_eq]
  obtain ⟨found, s₁⟩ := (fs.isDirectory path).run s
  match found with
  | .ok true => rfl
  | .ok false => rfl
  | .error cause =>
    dsimp only
    rw [run_run_bind_eq, run_attempt]
    obtain ⟨made, s₂⟩ := (fs.makeDirectory path).run s₁
    cases made <;> rfl

/-- A path that leads to nothing counts as removed. -/
theorem run_removeIfExists (path : String) (s : σ) :
    (fs.removeIfExists path).run.run s =
      match (fs.remove path).run s with
      | (.ok (), s') => (.ok (), s')
      | (.error cause, s') =>
        (if cause = .notFound then .ok () else .error { verb := "remove", paths := [path], cause },
          s') := by
  show (fs.remove path >>= _ : StateM σ (Except FileError Unit)).run s = _
  rw [run_bind_eq]
  obtain ⟨removed, s'⟩ := (fs.remove path).run s
  cases removed with
  | ok _ => rfl
  | error cause => cases cause <;> rfl

theorem run_fillAndMove (handle : Nat) (temporary path : String) (data : List UInt8) (s : σ) :
    (fs.fillAndMove handle temporary path data).run.run s =
      match (fs.write handle data).run s with
      | (.error cause, s₁) =>
        (.error { verb := "write", paths := [temporary], cause }, ((fs.close handle).run s₁).2)
      | (.ok (), s₁) =>
        match (fs.close handle).run s₁ with
        | (.error cause, s₂) => (.error { verb := "close", paths := [temporary], cause }, s₂)
        | (.ok (), s₂) =>
          match (fs.rename temporary path).run s₂ with
          | (.error cause, s₃) =>
            (.error { verb := "rename", paths := [temporary, path], cause }, s₃)
          | (.ok (), s₃) => (.ok (), s₃) := by
  rw [fillAndMove, run_run_lift_bind_eq]
  obtain ⟨written, s₁⟩ := (fs.write handle data).run s
  cases written with
  | error cause => rfl
  | ok _ =>
    dsimp only
    rw [run_run_bind_eq, run_attempt]
    obtain ⟨closed, s₂⟩ := (fs.close handle).run s₁
    cases closed with
    | error cause => rfl
    | ok _ =>
      dsimp only
      rw [run_attempt]
      obtain ⟨moved, s₃⟩ := (fs.rename temporary path).run s₂
      cases moved <;> rfl

/-- After the temporary file was made it is filled and moved. If that fails it is removed. -/
theorem run_writeAtomic (path : String) (data : List UInt8) (s : σ) :
    (fs.writeAtomic path data).run s =
      match (fs.makeDirectories (Path.leading (Path.dir path))).run.run s with
      | (.error e, s₁) => (.error [e], s₁)
      | (.ok (), s₁) =>
        match (fs.freshPath (Path.dir path)).run s₁ with
        | (temporary, s₂) =>
          match (fs.createNew temporary).run s₂ with
          | (.error cause, s₃) =>
            (.error [{ verb := "open", paths := [temporary], cause }], s₃)
          | (.ok handle, s₃) =>
            match (fs.fillAndMove handle temporary path data).run.run s₃ with
            | (.ok (), s₄) => (.ok (), s₄)
            | (.error e, s₄) =>
              match (fs.removeIfExists temporary).run.run s₄ with
              | (.ok (), s₅) => (.error [e], s₅)
              | (.error e', s₅) => (.error [e, e'], s₅) := by
  rw [writeAtomic, run_bind_eq]
  obtain ⟨made, s₁⟩ := (fs.makeDirectories (Path.leading (Path.dir path))).run.run s
  cases made with
  | error e => rfl
  | ok _ =>
    dsimp only
    rw [run_bind_eq]
    obtain ⟨temporary, s₂⟩ := (fs.freshPath (Path.dir path)).run s₁
    dsimp only
    rw [run_bind_eq, run_attempt]
    obtain ⟨created, s₃⟩ := (fs.createNew temporary).run s₂
    cases created with
    | error cause => rfl
    | ok handle =>
      dsimp only
      rw [run_bind_eq]
      obtain ⟨moved, s₄⟩ := (fs.fillAndMove handle temporary path data).run.run s₃
      cases moved with
      | ok _ => rfl
      | error e =>
        dsimp only
        rw [run_bind_eq]
        obtain ⟨removed, s₅⟩ := (fs.removeIfExists temporary).run.run s₄
        cases removed <;> rfl

/-! ## What failures tell -/

/-- The failure of a step of a write, with its cause. -/
inductive FailedStep (fs : FileSystem (StateM σ) Nat) (path : String) (data : List UInt8) :
    FileError → Prop
  /-- A file is where a directory has to be. -/
  | blocked {part : String} {s s' : σ} (h : (fs.isDirectory part).run s = (.ok false, s')) :
    FailedStep fs path data { verb := "mkdir", paths := [part], cause := .notDirectory }
  | makeDirectory {part : String} {cause : FileCause} {s s' : σ}
    (h : (fs.makeDirectory part).run s = (.error cause, s')) :
    FailedStep fs path data { verb := "mkdir", paths := [part], cause }
  | createNew {temporary : String} {cause : FileCause} {s s' : σ}
    (h : (fs.createNew temporary).run s = (.error cause, s')) :
    FailedStep fs path data { verb := "open", paths := [temporary], cause }
  | write {serial : Nat} {temporary : String} {cause : FileCause} {s s' : σ}
    (h : (fs.write serial data).run s = (.error cause, s')) :
    FailedStep fs path data { verb := "write", paths := [temporary], cause }
  | close {serial : Nat} {temporary : String} {cause : FileCause} {s s' : σ}
    (h : (fs.close serial).run s = (.error cause, s')) :
    FailedStep fs path data { verb := "close", paths := [temporary], cause }
  | rename {temporary : String} {cause : FileCause} {s s' : σ}
    (h : (fs.rename temporary path).run s = (.error cause, s')) :
    FailedStep fs path data { verb := "rename", paths := [temporary, path], cause }

theorem failedStep_of_makeDirectories {paths : List String} {path : String} {data : List UInt8}
    {e : FileError} (h : (fs.makeDirectories paths).run.run s = (.error e, s')) :
    fs.FailedStep path data e := by
  induction paths generalizing s with
  | nil => cases h
  | cons part inner ih =>
    rw [run_makeDirectories_cons] at h
    cases hfound : (fs.isDirectory part).run s with
    | mk found s₁ =>
      rw [hfound] at h
      match found with
      | .ok true => exact ih h
      | .ok false =>
        cases h
        exact .blocked hfound
      | .error _ =>
        dsimp only at h
        cases hmade : (fs.makeDirectory part).run s₁ with
        | mk made s₂ =>
          rw [hmade] at h
          cases made with
          | error cause =>
            cases h
            exact .makeDirectory hmade
          | ok _ => exact ih h

end FileSystem

namespace Tree

/-! ## The operations of a tree -/

theorem does_change (fault? : Option FileCause) (f : Tree → Except FileCause (α × Tree)) :
    Does id (change fault? f) f := by
  intro t
  cases fault? with
  | some cause => rfl
  | none =>
    cases hf : f t with
    | error cause =>
      have hrun : (change none f).run t = (.error cause, t) := by
        show change none f t = _
        simp only [change, hf]
      rw [hrun]
    | ok r =>
      have hrun : (change none f).run t = (.ok r.1, r.2) := by
        show change none f t = _
        simp only [change, hf]
      rw [hrun]
      exact hf

theorem does_look (f : Tree → Except FileCause α) :
    Does id (look f) fun t => (f t).map (·, t) := by
  intro t
  have hrun : (look f).run t = (f t, t) := rfl
  rw [hrun]
  cases hf : f t with
  | error cause => rfl
  | ok a =>
    show (f t).map (·, t) = .ok (a, t)
    rw [hf]
    rfl

/-- Whichever operations of a tree are told to fail, the others have their effects. -/
theorem worksOn_system (faults : Faults) : (system faults).WorksOn id where
  workingDirectory _ := ⟨rfl, rfl⟩
  isDirectory _ := does_look _
  read _ := does_look _
  create _ := does_change _ _
  createNew _ := does_change _ _
  freshPath _ _ := rfl
  write serial data t := by
    cases hfault : faults.write? with
    | some fault =>
      have hrun : ((system faults).write serial data).run t =
          (.error fault.2, t.append serial (data.take fault.1)) := by
        show writeOpen faults.write? serial data t = _
        rw [hfault]
        rfl
      rw [hrun]
      exact ⟨fault.1, rfl⟩
    | none =>
      have hrun : ((system faults).write serial data).run t = (.ok (), t.append serial data) := by
        show writeOpen faults.write? serial data t = _
        rw [hfault]
        rfl
      rw [hrun]
      rfl
  close _ := does_change faults.close? fun t => .ok ((), t)
  makeDirectory _ := does_change _ _
  rename _ _ := does_change _ _
  remove _ := does_change _ _

/-- A tree tells when there is nothing to remove, unless it is told to let removing fail so. -/
theorem tellsMissing_system {faults : Faults} (h : faults.remove? ≠ some .notFound) :
    (system faults).TellsMissing id := by
  intro path t t' hrun
  change change faults.remove? (fun t => (t.remove path).map ((), ·)) t = _ at hrun
  show t.remove path = .error .notFound
  unfold change at hrun
  split at hrun
  next cause hfault =>
    cases hrun
    exact absurd hfault h
  next =>
    dsimp only at hrun
    cases hremove : t.remove path with
    | ok after =>
      rw [hremove] at hrun
      cases hrun
    | error cause =>
      rw [hremove] at hrun
      cases hrun
      rfl

end Tree

end CodeEmission
