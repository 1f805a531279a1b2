import CodeEmission.Command.Program
import CodeEmission.Proofs.Command.Outcomes
import CodeEmission.Proofs.Files.AtomicWrite
import CodeEmission.Proofs.Files.Path

/-!
# Outputs and Inputs Apart

The outputs of several inputs get their paths one by one, and nothing compares them. Two inputs with
the same stem have the same output in a common directory, and an input that is named like an output
is written over.

* `outputPath_eq_iff` and `outputPath_eq_input_iff`: when two inputs have the same output, and when
  the output of an input is an input.
* `runJobs_written`: what jobs that succeed leave behind, if their outputs have places of their own.
* `outputs_kept_apart`: the outputs are apart from each other and from the inputs exactly under
  `KeepsApart`, and then nothing is lost.
-/

namespace CodeEmission.Command

open CodeEmission.Tree (placeOf)

/-! ## The paths of outputs -/

/-- The name of the output of an input. -/
def outputName (input : String) (kind : FileKind) : String :=
  Path.base (Path.stem input ++ kind.fileEnding)

/-- The directory of the output of an input. -/
def outputDirectory (input directory : String) : String :=
  if directory = "" then Path.dir input else directory

/-- No output takes the place of another output or of an input. -/
@[mk_iff]
structure KeepsApart (directory : String) (kind : FileKind) (inputs : List String) : Prop where
  stems : ∀ i ∈ inputs, ∀ j ∈ inputs, i ≠ j → Path.stem i = Path.stem j →
    directory = "" ∧ Path.dir i ≠ Path.dir j
  names : ∀ i ∈ inputs, ∀ j ∈ inputs, Path.base j = outputName i kind →
    Path.dir j ≠ Path.clean (outputDirectory i directory)

instance (directory : String) (kind : FileKind) (inputs : List String) :
    Decidable (KeepsApart directory kind inputs) :=
  decidable_of_iff _ (keepsApart_iff directory kind inputs).symm

section Paths

variable {kind : FileKind} {i j directory : String} (hkind : kind = .asm ∨ kind = .obj)

include hkind

/-- What ends like an output does not end in a dot, a slash or a dash. -/
theorem getLast?_append_fileEnding (text : String) :
    (text ++ kind.fileEnding).toList.getLast? = some 's' ∨
      (text ++ kind.fileEnding).toList.getLast? = some 'o' := by
  rcases hkind with rfl | rfl
  · left
    simp [FileKind.fileEnding]
  · right
    simp [FileKind.fileEnding]

/-- With the ending of a kind, every text without slashes is a name. -/
theorem isName_append_fileEnding {text : String} (h : '/' ∉ text.toList) :
    Path.IsName (text ++ kind.fileEnding) := by
  have hlast := getLast?_append_fileEnding hkind text
  refine ⟨?_, ?_, ?_, ?_⟩
  · intro heq
    simp [heq] at hlast
  · intro heq
    simp [heq] at hlast
  · intro heq
    simp [heq] at hlast
  · have hending : '/' ∉ kind.fileEnding.toList := by
      rcases hkind with rfl | rfl <;> decide
    simp [h, hending]

/-- The name of an output is the stem and the ending. The root has an empty stem here. -/
theorem exists_outputName_eq (input : String) :
    ∃ text, outputName input kind = text ++ kind.fileEnding ∧ '/' ∉ text.toList ∧
      (Path.stem input = "/" ∧ text = "" ∨ Path.stem input = text ∧ text ≠ "") := by
  rcases Path.stem_cases input with hroot | ⟨hne, hslash⟩
  · refine ⟨"", ?_, by simp, .inl ⟨hroot, rfl⟩⟩
    have hname := isName_append_fileEnding hkind (by simp : '/' ∉ "".toList)
    rw [String.empty_append] at hname ⊢
    rw [outputName, hroot]
    exact Path.base_slash_append hname
  · refine ⟨Path.stem input, ?_, hslash, .inr ⟨rfl, hne⟩⟩
    exact Path.base_of_isName (isName_append_fileEnding hkind hslash)

theorem isName_outputName (input : String) : Path.IsName (outputName input kind) := by
  obtain ⟨text, hname, hslash, -⟩ := exists_outputName_eq hkind input
  rw [hname]
  exact isName_append_fileEnding hkind hslash

/-- Names of outputs differ as stems do. -/
theorem outputName_inj : outputName i kind = outputName j kind ↔ Path.stem i = Path.stem j := by
  constructor
  · intro heq
    obtain ⟨text, hi, -, hstem⟩ := exists_outputName_eq hkind i
    obtain ⟨text', hj, -, hstem'⟩ := exists_outputName_eq hkind j
    rw [hi, hj, String.append_left_inj] at heq
    subst heq
    grind
  · intro heq
    rw [outputName, outputName, heq]

/-- An output has its name in its directory. -/
theorem outputPath_eq (input directory : String) :
    outputPath input "" directory kind =
      Path.ofKept (Path.isRooted (outputDirectory input directory))
        (outputName input kind :: Path.kept (outputDirectory input directory)) := by
  have hdirectory : outputDirectory input directory ≠ "" := by
    unfold outputDirectory
    split
    · exact Path.clean_ne_empty _
    · assumption
  have hpath : outputPath input "" directory kind =
      Path.join (outputDirectory input directory) (Path.stem input ++ kind.fileEnding) := by
    rcases hkind with rfl | rfl <;> rfl
  have hname := isName_outputName hkind input
  have hpush (rooted : Bool) (names : List String) :
      Path.push rooted names (outputName input kind) = outputName input kind :: names := by
    simp [Path.push, hname.ne_empty, hname.ne_dot, hname.ne_up]
  obtain ⟨text, heq, -, ⟨hroot, rfl⟩ | ⟨rfl, -⟩⟩ := exists_outputName_eq hkind input
  · -- the slash of the root only adds an empty component, which is not kept
    rw [String.empty_append] at heq
    rw [hpath, hroot, ← heq, Path.join_eq hdirectory (by simp), Path.pieces_slash_append,
      Path.pieces_eq_singleton hname.no_slash, List.foldl_cons, List.foldl_cons, List.foldl_nil]
    exact congrArg _ (hpush _ _)
  · rw [hpath, ← heq, Path.join_eq hdirectory hname.ne_empty,
      Path.pieces_eq_singleton hname.no_slash, List.foldl_cons, List.foldl_nil, hpush]

theorem isKept_outputPath (input directory : String) :
    Path.IsKept (Path.isRooted (outputDirectory input directory))
      (outputName input kind :: Path.kept (outputDirectory input directory)) :=
  .name (isName_outputName hkind input) (Path.isKept_kept _)

/-- Two inputs have the same output exactly if their stems are the same and so are their
directories, which do not matter if the outputs have a directory of their own. -/
theorem outputPath_eq_iff :
    outputPath i "" directory kind = outputPath j "" directory kind ↔
      Path.stem i = Path.stem j ∧ (directory = "" → Path.dir i = Path.dir j) := by
  rw [outputPath_eq hkind, outputPath_eq hkind,
    Path.ofKept_inj (isKept_outputPath hkind i directory) (isKept_outputPath hkind j directory),
    List.cons.injEq, outputName_inj hkind]
  by_cases hdirectory : directory = ""
  · -- beside the inputs: their directories are clean, so components tell them apart
    subst hdirectory
    simp only [outputDirectory, if_true, true_imp_iff]
    constructor
    · rintro ⟨hroot, hstem, hkept⟩
      rw [← Path.clean_dir i, ← Path.clean_dir j, Path.clean_eq, Path.clean_eq, hroot, hkept]
      exact ⟨hstem, rfl⟩
    · rintro ⟨hstem, hdir⟩
      rw [hdir]
      exact ⟨rfl, hstem, rfl⟩
  · simp [outputDirectory, hdirectory]

/-- The output of an input is a clean path exactly if it has its directory and its name. -/
theorem outputPath_eq_input_iff (hj : Path.clean j = j) :
    outputPath i "" directory kind = j ↔
      Path.dir j = Path.clean (outputDirectory i directory) ∧ Path.base j = outputName i kind := by
  -- the clean path as its components, of which the innermost is its last one
  have hkept := Path.isKept_kept j
  have hpath : j = Path.ofKept (Path.isRooted j) (Path.kept j) := hj.symm
  rw [outputPath_eq hkind, Path.clean_eq (outputDirectory i directory)]
  generalize Path.isRooted j = rooted at hkept hpath
  generalize Path.kept j = names at hkept hpath
  subst hpath
  cases names with
  | nil =>
    -- the root and the working directory are no outputs
    have hname := isName_outputName hkind i
    rw [Path.ofKept_inj (isKept_outputPath hkind i directory) hkept]
    constructor
    · rintro ⟨-, hcons⟩
      cases hcons
    · rintro ⟨-, hbase⟩
      cases rooted with
      | true => exact absurd (hbase ▸ hname.no_slash) (by decide)
      | false => exact absurd hbase.symm hname.ne_dot
  | cons first names =>
    rw [Path.ofKept_inj (isKept_outputPath hkind i directory) hkept, Path.dir_ofKept_cons hkept,
      Path.base_ofKept_cons hkept, Path.ofKept_inj hkept.tail (Path.isKept_kept _), List.cons.injEq]
    grind

theorem outputs_apart_iff {inputs : List String} (hdistinct : inputs.Nodup)
    (hclean : ∀ i ∈ inputs, Path.clean i = i) :
    ((inputs.map fun i => outputPath i "" directory kind).Nodup ∧
        ∀ output ∈ inputs.map (fun i => outputPath i "" directory kind), output ∉ inputs) ↔
      KeepsApart directory kind inputs := by
  constructor
  · rintro ⟨hnodup, hinputs⟩
    constructor
    · intro i hi j hj hne hstem
      have houtputs : outputPath i "" directory kind ≠ outputPath j "" directory kind :=
        fun heq => hne (List.inj_on_of_nodup_map hnodup hi hj heq)
      rw [Ne, outputPath_eq_iff hkind] at houtputs
      grind
    · intro i hi j hj hbase hdir
      have heq := (outputPath_eq_input_iff hkind (hclean j hj)).mpr ⟨hdir, hbase⟩
      exact hinputs _ (List.mem_map_of_mem hi) (heq ▸ hj)
  · rintro ⟨hstems, hnames⟩
    constructor
    · refine hdistinct.map_on fun i hi j hj heq => ?_
      by_contra hne
      obtain ⟨hstem, hdir⟩ := (outputPath_eq_iff hkind).mp heq
      obtain ⟨hdirectory, hdirs⟩ := hstems i hi j hj hne hstem
      exact hdirs (hdir hdirectory)
    · intro output houtput hinput
      obtain ⟨i, hi, rfl⟩ := List.mem_map.mp houtput
      obtain ⟨hdir, hbase⟩ := (outputPath_eq_input_iff hkind (hclean _ hinput)).mp rfl
      exact hnames i hi _ hinput hbase hdir

/-- No output is meant for standard output. -/
theorem outputPath_ne_dash (input directory : String) :
    outputPath input "" directory kind ≠ "-" := by
  intro hdash
  obtain ⟨-, hbase⟩ := (outputPath_eq_input_iff hkind (by decide)).mp hdash
  obtain ⟨text, hname, -, -⟩ := exists_outputName_eq hkind input
  have hlast := getLast?_append_fileEnding hkind text
  rw [← hname, ← hbase] at hlast
  revert hlast
  decide

end Paths

/-! ## What jobs leave behind -/

section Run

variable {faults : Tree.Faults} {stdout : Sink} {p : Profile} {o : Options} {t : Tree}

/-- The output of a job. -/
def Job.Renders (p : Profile) (o : Options) (job : Job) (output : Rendering) : Prop :=
  ∃ e, job.Emits p o e ∧ e.output? = some output

/-- A delivery into a file that does not fail is a write that succeeded. -/
theorem writeAtomic_of_deliver {σ Handle : Type} {fs : FileSystem (StateM σ) Handle} {r : JobResult}
    {bytes : List UInt8} {s : σ} (hok : ((deliver fs stdout r bytes).run s).1.failure? = none)
    (hfile : r.job.output ≠ "-") :
    (fs.writeAtomic r.job.output bytes).run s =
      (.ok (), ((deliver fs stdout r bytes).run s).2) := by
  unfold deliver at hok ⊢
  rw [if_neg hfile, run_bind_eq] at hok ⊢
  generalize (fs.writeAtomic r.job.output bytes).run s = written at hok ⊢
  obtain ⟨result, s'⟩ := written
  cases result with
  | ok done => rfl
  | error causes => cases hok

/-- A job that succeeds has written its output. -/
theorem runJob_written {job : Job} (ht : t.Sound) (ho : producesOutput o = true)
    (hfile : job.output ≠ "-")
    (hok : ((runJob (Tree.system faults) stdout p o job).run t).1.failure? = none) :
    ∃ output, job.Renders p o output ∧
      t.Written ((runJob (Tree.system faults) stdout p o job).run t).2 job.output output.bytes := by
  rcases runJob_cases (Tree.system faults) stdout p o job with
    ⟨f, -, hrun⟩ | ⟨e, timings, hemits, ⟨cause, -, hrun⟩ | ⟨-, hnot, -⟩ | ⟨output, -, hwrite, hrun⟩⟩
  · rw [hrun] at hok
    cases hok
  · rw [hrun] at hok
    cases hok
  · rw [ho] at hnot
    cases hnot
  · refine ⟨output, ⟨e, hemits, by simp [Emission.output?, hwrite, WriteStep.output?]⟩, ?_⟩
    rw [hrun] at hok ⊢
    have hwritten := writeAtomic_of_deliver hok hfile
    exact Tree.written_of_writeAtomic ht hwritten

/-- If all jobs succeed, the first one is run, and then the others. -/
theorem runJobs_cons_of_succeed {σ Handle : Type} {fs : FileSystem (StateM σ) Handle} {atATime : Nat}
    {results : List JobResult} {job : Job} {rest : List Job} {s : σ}
    (hok : ∀ r ∈ ((runJobs fs stdout p o atATime results (job :: rest)).run s).1,
      r.failure? = none) :
    ((runJob fs stdout p o job).run s).1.failure? = none ∧
      (runJobs fs stdout p o atATime results (job :: rest)).run s =
        (runJobs fs stdout p o atATime (results ++ [((runJob fs stdout p o job).run s).1]) rest).run
          ((runJob fs stdout p o job).run s).2 := by
  -- no job before this one failed, so it is not cancelled
  have hearlier : ∀ r ∈ results, r.failure? = none := by
    obtain ⟨new, hnew, -, -⟩ := runJobs_settle fs stdout p o atATime results (job :: rest) s
    rw [hnew] at hok
    exact fun r hr => hok r (List.mem_append_left _ hr)
  have hgo : ((results.take (results.length + 1 - atATime)).any fun r => r.failure?.isSome) =
      false := by
    rw [List.any_eq_false]
    intro r hr
    simp [hearlier r (List.mem_of_mem_take hr)]
  have hnext : (runJobs fs stdout p o atATime results (job :: rest)).run s =
      (runJobs fs stdout p o atATime (results ++ [((runJob fs stdout p o job).run s).1]) rest).run
        ((runJob fs stdout p o job).run s).2 := by
    rw [runJobs, hgo]
    rfl
  refine ⟨?_, hnext⟩
  rw [hnext] at hok
  obtain ⟨new, hnew, -, -⟩ := runJobs_settle fs stdout p o atATime
    (results ++ [((runJob fs stdout p o job).run s).1]) rest ((runJob fs stdout p o job).run s).2
  rw [hnew] at hok
  exact hok _ (by simp)

/-- Jobs that succeed leave their outputs behind, and files at other places as they were. -/
theorem runJobs_written {atATime : Nat} {results : List JobResult} {jobs : List Job} (ht : t.Sound)
    (ho : producesOutput o = true) (hfiles : ∀ job ∈ jobs, job.output ≠ "-")
    (hplaces : (jobs.map fun job => placeOf t.current job.output).Nodup)
    (hok : ∀ r ∈ ((runJobs (Tree.system faults) stdout p o atATime results jobs).run t).1,
      r.failure? = none) :
    let t' := ((runJobs (Tree.system faults) stdout p o atATime results jobs).run t).2
    (∀ job ∈ jobs, ∃ output, job.Renders p o output ∧ t'.read job.output = .ok output.bytes) ∧
      ∀ path content, (∀ job ∈ jobs, placeOf t.current path ≠ placeOf t.current job.output) →
        t.read path = .ok content → t'.read path = .ok content := by
  induction jobs generalizing results t with
  | nil => exact ⟨by simp, fun path content _ hread => hread⟩
  | cons job rest ih =>
    obtain ⟨hr, hnext⟩ := runJobs_cons_of_succeed hok
    obtain ⟨output, hrenders, hwritten⟩ := runJob_written ht ho (hfiles job List.mem_cons_self) hr
    rw [hnext] at hok ⊢
    rw [List.map_cons, List.nodup_cons, ← hwritten.current] at hplaces
    -- the working directory stays, and so does what paths stand for
    obtain ⟨houtputs, hkept⟩ := ih hwritten.sound
      (fun other hother => hfiles other (List.mem_cons_of_mem _ hother)) hplaces.2 hok
    rw [hwritten.current] at hplaces hkept
    constructor
    · intro other hother
      rcases List.mem_cons.mp hother with rfl | hother
      · -- later jobs write elsewhere
        refine ⟨output, hrenders, hkept _ _ (fun later hlater heq => ?_) hwritten.read⟩
        exact hplaces.1 (heq ▸ List.mem_map_of_mem hlater)
      · exact houtputs other hother
    · intro path content helsewhere hread
      refine hkept path content (fun later hlater => helsewhere later ?_) ?_
      · exact List.mem_cons_of_mem _ hlater
      · exact hwritten.read_of_ne (helsewhere job List.mem_cons_self) hread

/-! ## Reading the inputs -/

/-- A job as it is read from an input. -/
structure Job.IsReadFrom (t : Tree) (directory : String) (kind : FileKind) (path : String)
    (job : Job) : Prop where
  input : job.input = path
  output : job.output = outputPath path "" directory kind
  unit : ∃ bytes, t.read path = .ok bytes ∧
    CodeUnit.load path (Text.textOfBytes bytes) = .ok job.unit

/-- Two steps of a command succeed when the first does and then the second. -/
theorem Run.bind_eq_ok_iff {σ α β : Type} {x : Run (StateM σ) α} {f : α → Run (StateM σ) β} {b : β}
    {session session' : Session} {s s' : σ} :
    ((x >>= f).run.run session).run s = ((.ok b, session'), s') ↔
      ∃ a session₁ s₁, (x.run.run session).run s = ((.ok a, session₁), s₁) ∧
        ((f a).run.run session₁).run s₁ = ((.ok b, session'), s') := by
  have hbind : ((x >>= f).run.run session).run s =
      match (x.run.run session).run s with
      | ((.ok a, session₁), s₁) => ((f a).run.run session₁).run s₁
      | ((.error e, session₁), s₁) => ((.error e, session₁), s₁) := by
    rw [ExceptT.run_bind, StateT.run_bind, run_bind_eq]
    obtain ⟨⟨result, session₁⟩, s₁⟩ := (x.run.run session).run s
    cases result <;> rfl
  rw [hbind]
  obtain ⟨⟨result, session₁⟩, s₁⟩ := (x.run.run session).run s
  cases result with
  | error e =>
    constructor
    · intro h
      cases h
    · rintro ⟨a, session₂, s₂, h, -⟩
      cases h
  | ok a =>
    constructor
    · exact fun h => ⟨a, session₁, s₁, rfl, h⟩
    · rintro ⟨a', session₂, s₂, h, hrest⟩
      cases h
      exact hrest

/-- Reading inputs changes nothing, and if it succeeds there is a job for each. -/
theorem loadJobs_eq_ok {directory : String} {kind : FileKind} {inputs : List String}
    {jobs : List Job} {session session' : Session} {t' : Tree}
    (h : ((loadJobs (Tree.system faults) "" directory kind inputs).run.run session).run t =
      ((.ok jobs, session'), t')) :
    t' = t ∧ List.Forall₂ (Job.IsReadFrom t directory kind) inputs jobs := by
  induction inputs generalizing jobs session with
  | nil =>
    cases h
    exact ⟨rfl, .nil⟩
  | cons input rest ih =>
    rw [loadJobs, List.mapM_cons] at h
    obtain ⟨job, session₁, t₁, hjob, h⟩ := Run.bind_eq_ok_iff.mp h
    obtain ⟨others, session₂, t₂, hothers, h⟩ := Run.bind_eq_ok_iff.mp h
    cases h
    obtain ⟨read, session₃, t₃, hread, hjob⟩ := Run.bind_eq_ok_iff.mp hjob
    cases hread
    dsimp only at hjob
    -- the input was there, and its text is a unit
    cases hbytes : t.read input with
    | error cause =>
      rw [hbytes] at hjob
      cases hjob
    | ok bytes =>
      rw [hbytes] at hjob
      dsimp only at hjob
      cases hload : CodeUnit.load input (Text.textOfBytes bytes) with
      | error cause =>
        rw [hload] at hjob
        cases hjob
      | ok found =>
        rw [hload] at hjob
        cases hjob
        obtain ⟨rfl, hrest⟩ := ih hothers
        exact ⟨rfl, .cons ⟨rfl, rfl, bytes, hbytes, hload⟩ hrest⟩

section Read

variable {directory : String} {kind : FileKind} {inputs : List String} {jobs : List Job}

theorem map_output_eq (h : List.Forall₂ (Job.IsReadFrom t directory kind) inputs jobs) :
    jobs.map Job.output = inputs.map fun i => outputPath i "" directory kind := by
  induction h with
  | nil => rfl
  | cons hjob _ ih => rw [List.map_cons, List.map_cons, hjob.output, ih]

theorem exists_job_of_mem (h : List.Forall₂ (Job.IsReadFrom t directory kind) inputs jobs)
    {input : String} (hinput : input ∈ inputs) :
    ∃ job ∈ jobs, job.IsReadFrom t directory kind input := by
  induction h with
  | nil => cases hinput
  | cons hjob _ ih =>
    rcases List.mem_cons.mp hinput with rfl | hinput
    · exact ⟨_, List.mem_cons_self, hjob⟩
    · obtain ⟨job, hmem, hread⟩ := ih hinput
      exact ⟨job, List.mem_cons_of_mem _ hmem, hread⟩

end Read

/-- The rendering of an input: what a driver that accepts the options makes of its unit. -/
def IsRendering (p : Profile) (o : Options) (t : Tree) (input : String) (output : Rendering) :
    Prop :=
  ∃ bytes unit d, t.read input = .ok bytes ∧
    CodeUnit.load input (Text.textOfBytes bytes) = .ok unit ∧
    (Driver.standard p).configure o = .ok d ∧
    (Emission.ofDriver d p unit .accepting).output? = some output

theorem isRendering_of_renders {directory input : String} {kind : FileKind} {job : Job}
    {output : Rendering} (hread : job.IsReadFrom t directory kind input)
    (hrenders : job.Renders p o output) : IsRendering p o t input output := by
  obtain ⟨bytes, hbytes, hload⟩ := hread.unit
  obtain ⟨e, ⟨d, hd, rfl⟩, houtput⟩ := hrenders
  exact ⟨bytes, job.unit, d, hbytes, hload, hd, houtput⟩

/-- Jobs that succeed leave the rendering of each input in its output and the inputs alone, if
outputs and inputs lead to different places. -/
theorem outputs_left {atATime : Nat} {directory : String} {kind : FileKind} {inputs : List String}
    {jobs : List Job} (ht : t.Sound) (ho : producesOutput o = true)
    (hkind : kind = .asm ∨ kind = .obj)
    (hjobs : List.Forall₂ (Job.IsReadFrom t directory kind) inputs jobs)
    (houtputs : (inputs.map fun i => placeOf t.current (outputPath i "" directory kind)).Nodup)
    (hinputs : ∀ i ∈ inputs, ∀ j ∈ inputs,
      placeOf t.current i ≠ placeOf t.current (outputPath j "" directory kind))
    (hok : ∀ r ∈ ((runJobs (Tree.system faults) stdout p o atATime [] jobs).run t).1,
      r.failure? = none) :
    let t' := ((runJobs (Tree.system faults) stdout p o atATime [] jobs).run t).2
    ∀ input ∈ inputs, ∃ output, IsRendering p o t input output ∧
      t'.read (outputPath input "" directory kind) = .ok output.bytes ∧
      t'.read input = t.read input := by
  have hpaths := map_output_eq hjobs
  have houtput (job : Job) (hjob : job ∈ jobs) :
      ∃ i ∈ inputs, outputPath i "" directory kind = job.output :=
    List.mem_map.mp (hpaths ▸ List.mem_map_of_mem hjob)
  have hplaces : (jobs.map fun job => placeOf t.current job.output).Nodup := by
    have hsame : (jobs.map fun job => placeOf t.current job.output) =
        (jobs.map Job.output).map (placeOf t.current) := by rw [List.map_map]; rfl
    rw [hsame, hpaths, List.map_map]
    exact houtputs
  have hfiles (job : Job) (hjob : job ∈ jobs) : job.output ≠ "-" := by
    obtain ⟨i, -, heq⟩ := houtput job hjob
    exact heq ▸ outputPath_ne_dash hkind i directory
  obtain ⟨hwritten, hkept⟩ := runJobs_written ht ho hfiles hplaces hok
  intro t' input hinput
  obtain ⟨job, hjob, hread⟩ := exists_job_of_mem hjobs hinput
  obtain ⟨output, hrenders, hleft⟩ := hwritten job hjob
  refine ⟨output, isRendering_of_renders hread hrenders, hread.output ▸ hleft, ?_⟩
  -- an input that was read is at no place of an output
  obtain ⟨bytes, hbytes, -⟩ := hread.unit
  rw [hbytes]
  refine hkept input bytes (fun other hother => ?_) hbytes
  obtain ⟨i, hi, heq⟩ := houtput other hother
  exact heq ▸ hinputs input hinput i hi

end Run

/-- Inputs with clean paths of their own have outputs apart from each other and from the inputs
exactly if no two of them share a stem where their outputs share a directory, and none is named like
an output. Then jobs that succeed leave the rendering of each input behind and every input as it
was, as long as different paths lead to different files. -/
theorem outputs_kept_apart {directory : String} {kind : FileKind} {inputs : List String}
    (hkind : kind = .asm ∨ kind = .obj) (hdistinct : inputs.Nodup)
    (hclean : ∀ i ∈ inputs, Path.clean i = i) :
    let outputs := inputs.map fun i => outputPath i "" directory kind
    ((outputs.Nodup ∧ ∀ output ∈ outputs, output ∉ inputs) ↔ KeepsApart directory kind inputs) ∧
      (KeepsApart directory kind inputs →
        ∀ (faults : Tree.Faults) (stdout : Sink) (p : Profile) (o : Options) (atATime : Nat)
          (session : Session) (t : Tree) (jobs : List Job),
          let loaded :=
            ((loadJobs (Tree.system faults) "" directory kind inputs).run.run session).run t
          let ran := (runJobs (Tree.system faults) stdout p o atATime [] jobs).run loaded.2
          t.Sound → o.fileKind = kind → o.stopAfter = "" →
          (∀ a ∈ inputs ++ outputs, ∀ b ∈ inputs ++ outputs,
            placeOf t.current a = placeOf t.current b → a = b) →
          loaded.1.1 = .ok jobs → (∀ r ∈ ran.1, r.failure? = none) →
          ∀ input ∈ inputs, ∃ output, IsRendering p o t input output ∧
            ran.2.read (outputPath input "" directory kind) = .ok output.bytes ∧
            ran.2.read input = t.read input) := by
  intro outputs
  refine ⟨outputs_apart_iff hkind hdistinct hclean, fun hapart => ?_⟩
  intro faults stdout p o atATime session t jobs loaded ran ht hfileKind hstop hplaces hloaded hok
  obtain ⟨hnodup, hnot⟩ := (outputs_apart_iff hkind hdistinct hclean).mpr hapart
  have ho : producesOutput o = true := by
    rcases hkind with rfl | rfl <;> simp [producesOutput, hfileKind, hstop]
  -- the tree is the same after the inputs were read
  have hload : ((loadJobs (Tree.system faults) "" directory kind inputs).run.run session).run t =
      ((.ok jobs, loaded.1.2), loaded.2) := by
    rw [← hloaded]
    rfl
  obtain ⟨htree, hjobs⟩ := loadJobs_eq_ok hload
  -- the paths differ, and so do the places they stand for
  have houtput (i : String) (hi : i ∈ inputs) : outputPath i "" directory kind ∈ outputs :=
    List.mem_map_of_mem hi
  have houtputs :
      (inputs.map fun i => placeOf t.current (outputPath i "" directory kind)).Nodup := by
    refine hdistinct.map_on fun i hi j hj heq => List.inj_on_of_nodup_map hnodup hi hj ?_
    exact hplaces _ (List.mem_append_right _ (houtput i hi)) _
      (List.mem_append_right _ (houtput j hj)) heq
  have hinputs (i : String) (hi : i ∈ inputs) (j : String) (hj : j ∈ inputs) :
      placeOf t.current i ≠ placeOf t.current (outputPath j "" directory kind) := by
    intro heq
    have hsame := hplaces i (List.mem_append_left _ hi) _
      (List.mem_append_right _ (houtput j hj)) heq
    exact hnot _ (houtput j hj) (hsame ▸ hi)
  have hran : ran = (runJobs (Tree.system faults) stdout p o atATime [] jobs).run t := by
    show StateT.run _ loaded.2 = _
    rw [htree]
  rw [hran] at hok ⊢
  exact outputs_left ht ho hkind hjobs houtputs hinputs hok

/-- Two empty units with the same stem, in two directories. -/
def twoDirectories : Tree where
  entries := [(["a.toml", "work"], .file 0 []), (["a.toml", "sub", "work"], .file 1 []),
    (["sub", "work"], .directory), (["work"], .directory)]
  current := ["work"]
  made := 2

/-- Beside inputs in two directories there are two outputs. -/
theorem two_directories_kept_apart :
    let inputs := ["a.toml", "sub/a.toml"]
    let jobs : List Job :=
      [⟨"a.toml", "a.s", { name := "a" }⟩, ⟨"sub/a.toml", "sub/a.s", { name := "a" }⟩]
    let loaded := ((loadJobs Tree.system "" "" .asm inputs).run.run {}).run twoDirectories
    let ran := (runJobs Tree.system .accepting Profile.host { fileKind := .asm } 2 [] jobs).run
      loaded.2
    KeepsApart "" .asm inputs ∧ loaded.1.1 = .ok jobs ∧ (∀ r ∈ ran.1, r.failure? = none) ∧
      ∀ input ∈ inputs, ∃ output,
        IsRendering Profile.host { fileKind := .asm } twoDirectories input output ∧
          ran.2.read (outputPath input "" "" .asm) = .ok output.bytes ∧
          ran.2.read input = twoDirectories.read input := by
  intro inputs jobs loaded ran
  have hapart : KeepsApart "" .asm inputs := by decide +kernel
  have hloaded : loaded.1.1 = .ok jobs := by decide +kernel
  have hok : ∀ r ∈ ran.1, r.failure? = none := by decide +kernel
  have hinputs : inputs.Nodup := by decide
  refine ⟨hapart, hloaded, hok, ?_⟩
  obtain ⟨-, hkept⟩ := outputs_kept_apart (.inl rfl) hinputs (by decide +kernel)
  exact hkept hapart {} .accepting Profile.host { fileKind := .asm } 2 {} twoDirectories jobs
    (Tree.sound_of_entries (by decide)) rfl rfl (by decide +kernel) hloaded hok

/-- The listing of a unit with nothing in it but its name. -/
def emptyListing (name : String) : String :=
  "# mcemit unit " ++ name ++
    " (x86_64/elf/generic/default)\n\t.section\t.note.GNU-stack,\"\",@progbits\n"

/-- Two inputs with the same stem in one directory: both jobs succeed and say that they have written
their outputs, of which only the second is left. An input with the ending of an output is its own
output. -/
theorem same_stem_output_lost :
    let inputs := ["a.x.toml", "a.y.toml"]
    let jobs : List Job :=
      [⟨"a.x.toml", outputPath "a.x.toml" "" "" .asm, { name := "x" }⟩,
        ⟨"a.y.toml", outputPath "a.y.toml" "" "" .asm, { name := "y" }⟩]
    let ran := (runJobs Tree.system .accepting Profile.host { fileKind := .asm } 1 [] jobs).run {}
    (inputs.Nodup ∧ ∀ i ∈ inputs, Path.clean i = i) ∧
      jobs.map Job.output = ["a.s", "a.s"] ∧
      ran.1.map (JobResult.notice { fileKind := .asm }) = ["wrote a.s\n", "wrote a.s\n"] ∧
      ran.1.map (fun r => r.emission?.bind Emission.output?) =
        [some (.listing (emptyListing "x")), some (.listing (emptyListing "y"))] ∧
      ran.2.read "a.s" = .ok (Rendering.listing (emptyListing "y")).bytes ∧
      outputPath "a.s" "" "" .asm = "a.s" := by
  decide +kernel

end CodeEmission.Command
