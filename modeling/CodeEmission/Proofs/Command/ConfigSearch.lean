import CodeEmission.Command.Config
import CodeEmission.Files.Tree
import CodeEmission.Proofs.Files.Path
import CodeEmission.Proofs.Success
import Mathlib.Data.Nat.Find

/-!
# The Nearest Configuration File

A configuration file is looked for in a directory and in the directories above it. The directories
are a list that ends at the root; going up by `Path.dir` gives the same ones and never ends, since
it stays at the root. This module says what the search finds in terms of going up.

* `candidate`: the file that is looked for some steps above a directory.
* `IsNearest`: the first file on the way up that is not missing, if there is one
  (`missing_or_nearest`).
* `run_searchUp_of_nearest` and `run_searchUp_of_missing_above`: the search on the directories above
  a path from the root.
* `nearest_config_decides`: the nearest file that is not missing decides.
-/

namespace CodeEmission.Command

/-- The configuration file that may stand in the directory some steps above a path. -/
def candidate (path : String) (steps : Nat) : String :=
  Path.join (Path.dir^[steps] path) configFileName

theorem candidate_zero (path : String) : candidate path 0 = Path.join path configFileName := rfl

/-- One step up, and then some more. -/
theorem candidate_succ (path : String) (steps : Nat) :
    candidate path (steps + 1) = candidate (Path.dir path) steps := by
  rw [candidate, candidate, Function.iterate_succ_apply]

theorem candidate_root (steps : Nat) : candidate "/" steps = candidate "/" 0 := by
  rw [candidate, Function.iterate_fixed Path.dir_root]
  rfl

/-- What the search gives when it stops at a file. -/
def verdictAt (path : String) : Except FileCause Bool → Except ConfigError (Option String)
  | .ok _ => .ok (some path)
  | .error cause => .error (.search path cause)

theorem verdictAt_eq_some_iff {path found : String} {answer : Except FileCause Bool} :
    verdictAt path answer = .ok (some found) ↔ found = path ∧ ∃ b, answer = .ok b := by
  cases answer <;> simp [verdictAt, eq_comm]

theorem verdictAt_eq_error_iff {path : String} {answer : Except FileCause Bool} {e : ConfigError} :
    verdictAt path answer = .error e ↔
      ∃ cause, e = .search path cause ∧ answer = .error cause := by
  cases answer <;> simp [verdictAt, eq_comm]

theorem verdictAt_ne_none {path : String} {answer : Except FileCause Bool} :
    verdictAt path answer ≠ .ok none := by
  cases answer <;> simp [verdictAt]

/-- The nearest file that is not missing stands some steps above a path. -/
structure IsNearest (stat : String → Except FileCause Bool) (path : String) (steps : Nat) :
    Prop where
  stops : stat (candidate path steps) ≠ .error .notFound
  nearer : ∀ k < steps, stat (candidate path k) = .error .notFound

theorem IsNearest.unique {stat : String → Except FileCause Bool} {path : String} {m n : Nat}
    (hm : IsNearest stat path m) (hn : IsNearest stat path n) : m = n := by
  rcases Nat.lt_trichotomy m n with hlt | heq | hlt
  · exact absurd (hn.nearer m hlt) hm.stops
  · exact heq
  · exact absurd (hm.nearer n hlt) hn.stops

/-- Either all files on the way up are missing, or there is a nearest one that is not. -/
theorem missing_or_nearest (stat : String → Except FileCause Bool) (path : String) :
    (∀ k, stat (candidate path k) = .error .notFound) ∨ ∃ steps, IsNearest stat path steps := by
  classical
  by_cases hall : ∀ k, stat (candidate path k) = .error .notFound
  · exact .inl hall
  · have hexists := not_forall.mp hall
    exact .inr ⟨Nat.find hexists, Nat.find_spec hexists,
      fun k hk => not_not.mp (Nat.find_min hexists hk)⟩

section

variable {σ Handle : Type} {s : σ} {stat : String → Except FileCause Bool}
  {look : String → StateM σ (Except FileCause Bool)}

/-! ## The search on a list of directories -/

/-- A directory without the file is passed over. -/
theorem run_searchUp_of_missing (hlook : ∀ path, (look path).run s = (stat path, s))
    {directory : String} {above : List String}
    (h : stat (candidate directory 0) = .error .notFound) :
    (searchUp look (directory :: above)).run s = (searchUp look above).run s := by
  rw [searchUp, ← candidate_zero, run_bind_eq, hlook, h]

/-- The search stops at a file that is there, and at one that cannot be looked at. -/
theorem run_searchUp_of_not_missing (hlook : ∀ path, (look path).run s = (stat path, s))
    {directory : String} {above : List String}
    (h : stat (candidate directory 0) ≠ .error .notFound) :
    (searchUp look (directory :: above)).run s =
      (verdictAt (candidate directory 0) (stat (candidate directory 0)), s) := by
  rw [searchUp, ← candidate_zero, run_bind_eq, hlook]
  dsimp only
  split
  next hfound => rw [hfound]; rfl
  next hmissing => exact absurd hmissing h
  next cause _ hcause => rw [hcause]; rfl

/-! ## The search on the way up -/

variable {names : List String}

/-- The nearest file that is not missing ends the search. -/
theorem run_searchUp_of_nearest (hlook : ∀ path, (look path).run s = (stat path, s))
    (h : Path.IsKept true names) {steps : Nat}
    (hnearest : IsNearest stat (Path.ofKept true names) steps) :
    (searchUp look (Path.ancestors (Path.ofKept true names))).run s =
      (verdictAt (candidate (Path.ofKept true names) steps)
        (stat (candidate (Path.ofKept true names) steps)), s) := by
  obtain ⟨hstop, hnearer⟩ := hnearest
  induction names generalizing steps with
  | nil =>
    -- the file of the root is looked at once, and all further steps lead to it again
    have hroot : Path.ofKept true [] = "/" := rfl
    rw [hroot, candidate_root] at hstop ⊢
    rw [Path.ancestors_root, run_searchUp_of_not_missing hlook hstop]
  | cons first rest ih =>
    rw [Path.ancestors_ofKept_cons h]
    cases steps with
    | zero => exact run_searchUp_of_not_missing hlook hstop
    | succ steps =>
      rw [run_searchUp_of_missing hlook (hnearer 0 (Nat.succ_pos steps))]
      rw [candidate_succ, Path.dir_ofKept_cons h] at hstop ⊢
      refine ih h.tail hstop fun k hk => ?_
      have hmissing := hnearer (k + 1) (Nat.succ_lt_succ hk)
      rwa [candidate_succ, Path.dir_ofKept_cons h] at hmissing

/-- Nothing is found when all files are missing. -/
theorem run_searchUp_of_missing_above (hlook : ∀ path, (look path).run s = (stat path, s))
    (h : Path.IsKept true names)
    (hmissing : ∀ k, stat (candidate (Path.ofKept true names) k) = .error .notFound) :
    (searchUp look (Path.ancestors (Path.ofKept true names))).run s = (.ok none, s) := by
  induction names with
  | nil =>
    have hroot : Path.ofKept true [] = "/" := rfl
    rw [hroot] at hmissing ⊢
    rw [Path.ancestors_root, run_searchUp_of_missing hlook (hmissing 0)]
    rfl
  | cons first rest ih =>
    rw [Path.ancestors_ofKept_cons h, run_searchUp_of_missing hlook (hmissing 0)]
    refine ih h.tail fun k => ?_
    have hnext := hmissing (k + 1)
    rwa [candidate_succ, Path.dir_ofKept_cons h] at hnext

end

/-- From a start that is given from the root, the search is that on the directories above it. -/
theorem run_findConfig {σ Handle : Type} {fs : FileSystem (StateM σ) Handle} {s : σ}
    {start here : String} (hstart : Path.isRooted start = true)
    (hhere : fs.workingDirectory.run s = (here, s)) :
    (findConfig fs start).run s =
      (searchUp fs.isDirectory (Path.ancestors (Path.clean start))).run s := by
  have hne : start ≠ "" := by
    rintro rfl
    cases hstart
  rw [findConfig, run_bind_eq, hhere, if_neg hne, Path.absolute, if_pos hstart]

/-- The search for a configuration file is decided by the nearest directory, the start and the root
included, whose file is not missing. Going up from a start that is given from the root comes to the
root. Whatever looking at the files gives, the search ends: it finds a file just if that is the
nearest one that is not missing and it is there; it fails just if the nearest one that is not
missing cannot be looked at, and tells which one and why; and it finds nothing just if all files are
missing. -/
theorem nearest_config_decides {σ Handle : Type} {fs : FileSystem (StateM σ) Handle} {s : σ}
    {stat : String → Except FileCause Bool} {start here : String}
    (hstart : Path.isRooted start = true)
    (hstat : ∀ path, (fs.isDirectory path).run s = (stat path, s))
    (hhere : fs.workingDirectory.run s = (here, s)) :
    (∃ steps, Path.dir^[steps] (Path.clean start) = "/") ∧
    ∃ result, (findConfig fs start).run s = (result, s) ∧
      (∀ path, result = .ok (some path) ↔
        ∃ steps, IsNearest stat (Path.clean start) steps ∧
          path = candidate (Path.clean start) steps ∧ ∃ isDirectory, stat path = .ok isDirectory) ∧
      (∀ e, result = .error e ↔
        ∃ steps cause, IsNearest stat (Path.clean start) steps ∧
          e = .search (candidate (Path.clean start) steps) cause ∧
          stat (candidate (Path.clean start) steps) = .error cause) ∧
      (result = .ok none ↔ ∀ k, stat (candidate (Path.clean start) k) = .error .notFound) := by
  have hkept := Path.isKept_kept start
  have hclean := Path.clean_eq start
  rw [hstart] at hkept hclean
  rw [run_findConfig hstart hhere, hclean]
  refine ⟨⟨(Path.kept start).length, ?_⟩, ?_⟩
  · rw [Path.iterate_dir_ofKept hkept, List.drop_length]
    rfl
  · rcases missing_or_nearest stat (Path.ofKept true (Path.kept start)) with
      hmissing | ⟨steps, hnearest⟩
    · refine ⟨.ok none, run_searchUp_of_missing_above hstat hkept hmissing, fun path => ?_,
        fun e => ?_, iff_of_true rfl hmissing⟩
      · refine iff_of_false (by simp) ?_
        rintro ⟨steps, hnearest, -⟩
        exact hnearest.stops (hmissing steps)
      · refine iff_of_false (by simp) ?_
        rintro ⟨steps, -, hnearest, -⟩
        exact hnearest.stops (hmissing steps)
    · refine ⟨_, run_searchUp_of_nearest hstat hkept hnearest, fun path => ?_,
        fun e => ?_, iff_of_false verdictAt_ne_none fun hmissing => hnearest.stops (hmissing steps)⟩
      · rw [verdictAt_eq_some_iff]
        constructor
        · rintro ⟨rfl, hfound⟩
          exact ⟨steps, hnearest, rfl, hfound⟩
        · rintro ⟨steps', hnearest', rfl, hfound⟩
          rw [hnearest.unique hnearest']
          exact ⟨rfl, hfound⟩
      · rw [verdictAt_eq_error_iff]
        constructor
        · rintro ⟨cause, he, hcause⟩
          exact ⟨steps, cause, hnearest, he, hcause⟩
        · rintro ⟨steps', cause, hnearest', he, hcause⟩
          rw [hnearest.unique hnearest']
          exact ⟨cause, he, hcause⟩

/-- A working directory with a configuration file, a file and two directories, one in the other. -/
def searchedTree : Tree :=
  { entries := [(["mcemit.toml", "work"], .file 0 []), (["f", "work"], .file 1 []),
      (["b", "a", "work"], .directory), (["a", "work"], .directory), (["work"], .directory)]
    current := ["work"]
    made := 2 }

/-- From the inner directory the file is found two steps above. From the file as if it were a
directory the search fails, since the nearest file cannot be looked at, and goes no further up. -/
theorem searched_two_steps_above :
    Path.isRooted "/work/a/./b" = true ∧ Path.isRooted "/work/f" = true ∧
    (findConfig (Tree.system {}) "/work/a/./b").run searchedTree =
      (.ok (some "/work/mcemit.toml"), searchedTree) ∧
    (findConfig (Tree.system {}) "/work/f").run searchedTree =
      (.error (.search "/work/f/mcemit.toml" .notDirectory), searchedTree) := by
  have hnested : Path.isRooted "/work/a/./b" = true := by decide
  have hfile : Path.isRooted "/work/f" = true := by decide
  have hdecided {start : String} (hstart : Path.isRooted start = true) :=
    @nearest_config_decides _ _ (Tree.system {}) searchedTree
      (fun path => searchedTree.isDirectory path) start (Tree.pathOf searchedTree.current) hstart
      (fun _ => rfl) rfl
  refine ⟨hnested, hfile, ?_, ?_⟩
  · obtain ⟨-, result, hrun, hfound, -, -⟩ := hdecided hnested
    have hplace : candidate (Path.clean "/work/a/./b") 2 = "/work/mcemit.toml" := by decide +kernel
    have hthere : searchedTree.isDirectory "/work/mcemit.toml" = .ok false := by decide +kernel
    have hinner : searchedTree.isDirectory (candidate (Path.clean "/work/a/./b") 0) =
        .error .notFound := by decide +kernel
    have houter : searchedTree.isDirectory (candidate (Path.clean "/work/a/./b") 1) =
        .error .notFound := by decide +kernel
    have hnearest : IsNearest (fun path => searchedTree.isDirectory path)
        (Path.clean "/work/a/./b") 2 := by
      refine ⟨by simp [hplace, hthere], fun k hk => ?_⟩
      match k, hk with
      | 0, _ => exact hinner
      | 1, _ => exact houter
    rw [hrun, (hfound "/work/mcemit.toml").mpr ⟨2, hnearest, hplace.symm, false, hthere⟩]
  · obtain ⟨-, result, hrun, -, hfailed, -⟩ := hdecided hfile
    have hplace : candidate (Path.clean "/work/f") 0 = "/work/f/mcemit.toml" := by decide +kernel
    have hblocked : searchedTree.isDirectory (candidate (Path.clean "/work/f") 0) =
      .error .notDirectory := by decide +kernel
    have hnearest : IsNearest (fun path => searchedTree.isDirectory path)
        (Path.clean "/work/f") 0 :=
      ⟨by simp [hblocked], fun k hk => absurd hk (Nat.not_lt_zero k)⟩
    rw [hrun, (hfailed _).mpr ⟨0, .notDirectory, hnearest, by rw [hplace], hblocked⟩]

end CodeEmission.Command
