import CodeEmission.Command.Job
import CodeEmission.Files.Tree
import CodeEmission.Proofs.Pipeline.Delivery
import CodeEmission.Proofs.Pipeline.Output
import CodeEmission.Proofs.Progress.Rows
import CodeEmission.Proofs.Success

/-!
# What Jobs Report

A job ends in one of four ways: it was not run, its emission failed, all went well, or the output
was there and could not be put in its place. The driver's events come before the last of these is
known, and so the progress view shows such a job as done.

* `runJob_cases`: what running a job comes to, and `runJobs_settle`: jobs end in these ways and no
  others.
* `Emission.verdict_of_mem_progress`: what the events of a driver say of the end of a unit.
* `rows_show_outcomes`: what the progress view shows of a job, and when that is the truth.
-/

namespace CodeEmission

/-! ## What a driver reports -/

/-- A stage that was run is one of the stages, and it failed only if the run did. -/
theorem of_mem_steps {p : Profile} {o : Options} {stages : List Stage} {u : CodeUnit}
    {step : StageStep} (h : step ∈ (runStages p o stages u).steps) :
    (∃ s ∈ stages, step.name = s.name) ∧
      ∀ f, step.failure? = some f → (runStages p o stages u).ending = .failed f := by
  induction stages generalizing u with
  | nil => cases h
  | cons s rest ih =>
    rw [runStages] at h ⊢
    dsimp only at h ⊢
    split at h
    next f hf =>
      rw [List.mem_singleton.mp h]
      exact ⟨⟨s, List.mem_cons_self, rfl⟩, fun g hg => by rw [← Option.some.inj hg]⟩
    next hnone =>
      split at h
      · rw [List.mem_singleton.mp h]
        exact ⟨⟨s, List.mem_cons_self, rfl⟩, fun f hf => absurd hf (Option.some_ne_none f).symm⟩
      next hstop =>
        rcases List.mem_cons.mp h with rfl | h
        · exact ⟨⟨s, List.mem_cons_self, rfl⟩, fun f hf => absurd hf (Option.some_ne_none f).symm⟩
        · obtain ⟨⟨t, ht, hname⟩, hfailed⟩ := ih h
          rw [if_neg hstop]
          exact ⟨⟨t, List.mem_cons_of_mem _ ht, hname⟩, hfailed⟩

namespace Emission

variable {d : Driver} {p : Profile} {u : CodeUnit} {sink : Sink}

/-- Of the events of a driver, those that end the unit say whether the emission failed. -/
theorem verdict_of_mem_progress (hnames : ∀ s ∈ d.stages, s.name ≠ "") {event : Progress.Event}
    (h : event ∈ (ofDriver d p u sink).progress) (hends : event.ends = true) :
    event.verdict = if (ofDriver d p u sink).failure?.isSome then "error" else "done" := by
  rw [progress, List.mem_append, List.mem_cons] at h
  rcases h with (rfl | h) | h
  · cases hends
  · obtain ⟨step, hstep, hevent⟩ := List.mem_flatMap.mp h
    obtain ⟨⟨s, hs, hname⟩, hfailed⟩ := of_mem_steps hstep
    have hstage : step.name ≠ "" := hname ▸ hnames s (List.mem_of_mem_drop hs)
    cases hfailure : step.failure? with
    | none =>
      -- the events of a stage that went well do not end the unit
      simp only [StageStep.progress, hfailure, List.mem_cons, List.not_mem_nil, or_false] at hevent
      rcases hevent with rfl | rfl
      · cases hends
      · simp [Progress.Event.ends, hstage] at hends
    | some f =>
      simp only [StageStep.progress, hfailure, List.mem_cons, List.not_mem_nil, or_false] at hevent
      have hsome : (ofDriver d p u sink).failure? = some (.stage f) :=
        (failure?_eq_stage_iff _ f).mpr (hfailed f hfailure)
      rcases hevent with rfl | rfl
      · cases hends
      · simp [Progress.Event.verdict, hsome]
  · obtain ⟨w, hw, rfl⟩ := List.mem_map.mp h
    rw [isSome_failure?_of_write? (Option.mem_toList.mp hw)]
    cases hfailure : w.failure? <;> simp [WriteStep.progress, Progress.Event.verdict, hfailure]

/-- All events of a driver are about its unit. -/
theorem unit_of_mem_progress {event : Progress.Event} (h : event ∈ (ofDriver d p u sink).progress) :
    event.unit = u.name := by
  rw [progress, List.mem_append, List.mem_cons] at h
  rcases h with (rfl | h) | h
  · rfl
  · obtain ⟨step, -, hevent⟩ := List.mem_flatMap.mp h
    cases hfailure : step.failure? <;>
      simp only [StageStep.progress, hfailure, List.mem_cons, List.not_mem_nil,
        or_false] at hevent <;>
      rcases hevent with rfl | rfl <;> rfl
  · obtain ⟨w, -, rfl⟩ := List.mem_map.mp h
    rfl

end Emission

namespace Command

variable {p : Profile} {o : Options} {d : Driver} {u : CodeUnit}

/-- An emission that is to leave an output and does not fail has written it. -/
theorem exists_written {sink : Sink} (hd : (Driver.standard p).configure o = .ok d)
    (ho : producesOutput o = true) (hnone : (Emission.ofDriver d p u sink).failure? = none) :
    ∃ output, (Emission.ofDriver d p u sink).write? = some (.written output) := by
  obtain ⟨options, haccept, rfl⟩ := Driver.configure_eq_ok hd
  obtain ⟨kind, hkind, rfl⟩ := (Driver.accepted_of_accept haccept).kind
  let d : Driver :=
    { Driver.standard p with options := { o with fileKind := kind }, state := .configured }
  obtain ⟨hgiven, hstop⟩ : o.fileKind ≠ .null ∧ o.stopAfter = "" := by
    simpa [producesOutput] using ho
  -- there is no stage to stop after, so all stages were run
  have hfinished : (Emission.ofDriver d p u sink).run.ending = .finished := by
    rw [Emission.finished_iff_not_mem hnone]
    intro hmem
    obtain ⟨s, hs, hname⟩ := List.mem_map.mp hmem
    have hnamed : ∀ s ∈ Stage.standard, s.name ≠ "" := by decide
    exact absurd (hname.trans hstop) (hnamed s (List.mem_of_mem_drop hs))
  obtain ⟨output, -, hwrite⟩ :=
    Emission.exists_written_of_finished (d := d) hnone hkind hgiven hfinished
  exact ⟨output, hwrite⟩

/-! ## How jobs end -/

/-- Whether a job failed at its very end, when its output was to be put in its place. -/
def JobError.isDelivery : JobError → Bool
  | output _ | unprinted _ => true
  | cancelled | unconfigured _ | emission _ => false

/-- The emission of a job: what a driver that accepts the options makes of the job's unit. -/
def Job.Emits (p : Profile) (o : Options) (job : Job) (e : Emission) : Prop :=
  ∃ d, (Driver.standard p).configure o = .ok d ∧ e = Emission.ofDriver d p job.unit .accepting

/-- The ways in which a job ends. -/
inductive JobResult.Settled (p : Profile) (o : Options) (r : JobResult) : Prop where
  | notRun (f : JobError) (hemission : r.emission? = none) (hfailure : r.failure? = some f)
    (hf : f.isDelivery = false)
  | failed (e : Emission) (cause : EmitError) (hemits : r.job.Emits p o e)
    (hemission : r.emission? = some e) (hcause : e.failure? = some cause)
    (hfailure : r.failure? = some (.emission cause))
  | done (e : Emission) (hemits : r.job.Emits p o e) (hemission : r.emission? = some e)
    (hnone : e.failure? = none) (hfailure : r.failure? = none)
  | undelivered (e : Emission) (output : Rendering) (f : JobError) (hemits : r.job.Emits p o e)
    (hemission : r.emission? = some e) (hnone : e.failure? = none)
    (hwrite : e.write? = some (.written output)) (hfailure : r.failure? = some f)
    (hf : f.isDelivery = true)

section Cases

variable {m : Type → Type} [Monad m] {Handle : Type} (fs : FileSystem m Handle) (stdout : Sink)

/-- What running a job comes to: a failure before the emission, an emission that failed or leaves no
output, or the delivery of the output. -/
theorem runJob_cases (p : Profile) (o : Options) (job : Job) :
    (∃ f : JobError, f.isDelivery = false ∧
        runJob fs stdout p o job = pure { job, failure? := some f }) ∨
      ∃ e timings, job.Emits p o e ∧
        ((∃ cause, e.failure? = some cause ∧ runJob fs stdout p o job =
            pure { job, emission? := some e, timings, failure? := some (.emission cause) }) ∨
          (e.failure? = none ∧ producesOutput o = false ∧
            runJob fs stdout p o job = pure { job, emission? := some e, timings }) ∨
          ∃ output, e.failure? = none ∧ e.write? = some (.written output) ∧
            runJob fs stdout p o job =
              deliver fs stdout { job, emission? := some e, timings } output.bytes) := by
  unfold runJob
  split
  next cause _ => exact .inl ⟨_, rfl, rfl⟩
  next d hd =>
    split
    next cause _ => exact .inl ⟨_, rfl, rfl⟩
    next e d' hemit =>
      obtain ⟨_, q, ⟨rfl⟩, hprofile, -, -, rfl, -⟩ := Driver.emit_eq_ok hemit
      obtain ⟨options, -, hd'⟩ := Driver.configure_eq_ok hd
      -- the driver emits for the profile that it was made for
      have hq : q = p := by
        rw [hd'] at hprofile
        exact (Option.some.inj hprofile).symm
      subst hq
      refine .inr ⟨_, d'.timer.report, ⟨d, hd, rfl⟩, ?_⟩
      cases hfailure : (Emission.ofDriver d q job.unit .accepting).failure? with
      | some cause => exact .inl ⟨cause, rfl, rfl⟩
      | none =>
        refine .inr ?_
        simp only [Option.map_none, Option.isNone_none, Bool.true_and]
        cases ho : producesOutput o with
        | false => exact .inl ⟨trivial, rfl, rfl⟩
        | true =>
          obtain ⟨output, hwrite⟩ := exists_written hd ho hfailure
          refine .inr ⟨output, trivial, hwrite, ?_⟩
          simp [Emission.output?, hwrite, WriteStep.output?]

end Cases

section Jobs

variable {σ Handle : Type} (fs : FileSystem (StateM σ) Handle) (stdout : Sink)

/-- Delivery changes a result by a failure of its own, if by any. -/
theorem deliver_result (r : JobResult) (bytes : List UInt8) (s : σ) :
    ((deliver fs stdout r bytes).run s).1.job = r.job ∧
      ((deliver fs stdout r bytes).run s).1.emission? = r.emission? ∧
      (((deliver fs stdout r bytes).run s).1.failure? = r.failure? ∨
        ∃ f, ((deliver fs stdout r bytes).run s).1.failure? = some f ∧ f.isDelivery = true) := by
  unfold deliver
  split
  · cases stdout with
    | failing text => exact ⟨rfl, rfl, .inr ⟨_, rfl, rfl⟩⟩
    | accepting | absent => exact ⟨rfl, rfl, .inl rfl⟩
  · rw [run_bind_eq]
    obtain ⟨written, s'⟩ := (fs.writeAtomic r.job.output bytes).run s
    cases written with
    | ok done => exact ⟨rfl, rfl, .inl rfl⟩
    | error causes => exact ⟨rfl, rfl, .inr ⟨_, rfl, rfl⟩⟩

theorem runJob_settles (p : Profile) (o : Options) (job : Job) (s : σ) :
    ((runJob fs stdout p o job).run s).1.job = job ∧
      ((runJob fs stdout p o job).run s).1.Settled p o := by
  rcases runJob_cases fs stdout p o job with ⟨f, hf, hrun⟩ | ⟨e, timings, hemits, hcases⟩
  · rw [hrun]
    exact ⟨rfl, .notRun f rfl rfl hf⟩
  · rcases hcases with ⟨cause, hcause, hrun⟩ | ⟨hnone, -, hrun⟩ | ⟨output, hnone, hwrite, hrun⟩
    · rw [hrun]
      exact ⟨rfl, .failed e cause hemits rfl hcause rfl⟩
    · rw [hrun]
      exact ⟨rfl, .done e hemits rfl hnone rfl⟩
    · rw [hrun]
      obtain ⟨hjob, hemission, hsame | ⟨f, hf, hdelivery⟩⟩ :=
        deliver_result fs stdout { job, emission? := some e, timings } output.bytes s
      · exact ⟨hjob, .done e (hjob ▸ hemits) hemission hnone hsame⟩
      · exact ⟨hjob, .undelivered e output f (hjob ▸ hemits) hemission hnone hwrite hf hdelivery⟩

/-- Jobs that are run give a result each, in their order. -/
theorem runJobs_settle (p : Profile) (o : Options) (atATime : Nat) (results : List JobResult)
    (jobs : List Job) (s : σ) :
    ∃ new, ((runJobs fs stdout p o atATime results jobs).run s).1 = results ++ new ∧
      new.map JobResult.job = jobs ∧ ∀ r ∈ new, r.Settled p o := by
  induction jobs generalizing results s with
  | nil => exact ⟨[], (List.append_nil results).symm, rfl, by simp⟩
  | cons job rest ih =>
    -- the job is run or cancelled, and then the others have their turn
    have hnext (r : JobResult) (s' : σ) (hjob : r.job = job) (hr : r.Settled p o) :
        ∃ new, ((runJobs fs stdout p o atATime (results ++ [r]) rest).run s').1 = results ++ new ∧
          new.map JobResult.job = job :: rest ∧ ∀ r ∈ new, r.Settled p o := by
      obtain ⟨new, hnew, hjobs, hsettled⟩ := ih (results ++ [r]) s'
      refine ⟨r :: new, by rw [hnew, List.append_assoc]; rfl, ?_, ?_⟩
      · rw [List.map_cons, hjob, hjobs]
      · intro other hother
        rcases List.mem_cons.mp hother with rfl | hother
        · exact hr
        · exact hsettled other hother
    rw [runJobs]
    dsimp only
    split
    · exact hnext { job, failure? := some .cancelled } s rfl (.notRun .cancelled rfl rfl rfl)
    · obtain ⟨hjob, hr⟩ := runJob_settles fs stdout p o job s
      exact hnext _ _ hjob hr

end Jobs

/-! ## What is shown of a job -/

namespace JobResult

open Progress (Event Item Model)

variable {p : Profile} {o : Options} {r : JobResult}

/-- What the last row of a job's unit shows in the end: an error, unless the job went well or failed
only in its delivery. -/
def verdict (r : JobResult) : String :=
  if r.failure?.any fun f => !f.isDelivery then "error" else "done"

theorem ends_finalEvent (r : JobResult) : r.finalEvent.ends = true := by
  cases hfailure : r.failure? <;> simp [finalEvent, Event.ends, hfailure]

/-- The event for the job as a whole counts only if no event of the driver has ended the unit. -/
theorem find?_ends_progress (r : JobResult) :
    r.progress.find? Event.ends =
      ((r.emission?.toList.flatMap Emission.progress).find? Event.ends).or (some r.finalEvent) := by
  rw [progress, List.find?_append, List.find?_cons_of_pos r.ends_finalEvent]

/-- The driver's events decide what is shown, if they end the unit or if the job as a whole has come
out as its emission. -/
theorem verdict_of_emission {e : Emission} (hemits : r.job.Emits p o e)
    (hemission : r.emission? = some e)
    (h : (∃ event ∈ e.progress, event.ends = true) ∨
      r.finalEvent.verdict = if e.failure?.isSome then "error" else "done") :
    (r.progress.find? Event.ends).map Event.verdict =
      some (if e.failure?.isSome then "error" else "done") := by
  rw [r.find?_ends_progress, hemission, Option.toList_some, List.flatMap_singleton]
  cases hfound : e.progress.find? Event.ends with
  | some event =>
    obtain ⟨d, hd, rfl⟩ := hemits
    have hnamed : ∀ s ∈ d.stages, s.name ≠ "" := by
      obtain ⟨options, -, rfl⟩ := Driver.configure_eq_ok hd
      show ∀ s ∈ Stage.standard, s.name ≠ ""
      decide
    exact congrArg some (Emission.verdict_of_mem_progress hnamed (List.mem_of_find?_eq_some hfound)
      (List.find?_some hfound))
  | none =>
    rcases h with ⟨event, hmem, hends⟩ | hfinal
    · exact absurd hends (List.find?_eq_none.mp hfound event hmem)
    · exact congrArg some hfinal

/-- What is shown of a job in the end, by the first event that ends its unit. -/
theorem Settled.verdict_of_progress (hr : r.Settled p o) :
    (r.progress.find? Event.ends).map Event.verdict = some r.verdict := by
  cases hr with
  | notRun f hemission hfailure hf =>
    rw [r.find?_ends_progress]
    simp [hemission, finalEvent, hfailure, Event.verdict, verdict, hf]
  | failed e cause hemits hemission hcause hfailure =>
    have hfinal : r.finalEvent.verdict = "error" := by simp [finalEvent, hfailure, Event.verdict]
    rw [verdict_of_emission hemits hemission (.inr (by simp [hfinal, hcause]))]
    simp [hcause, verdict, hfailure, JobError.isDelivery]
  | done e hemits hemission hnone hfailure =>
    have hfinal : r.finalEvent.verdict = "done" := by simp [finalEvent, hfailure, Event.verdict]
    rw [verdict_of_emission hemits hemission (.inr (by simp [hfinal, hnone]))]
    simp [hnone, verdict, hfailure]
  | undelivered e output f hemits hemission hnone hwrite hfailure hf =>
    -- the driver has told of the writing, and the view does not hear of the failure after it
    have hended : ∃ event ∈ e.progress, event.ends = true := by
      refine ⟨WriteStep.progress e.unitName (.written output), ?_, rfl⟩
      simp [Emission.progress, hwrite]
    rw [verdict_of_emission hemits hemission (.inl hended)]
    simp [hnone, verdict, hfailure, hf]

/-- All events of a job are about its unit. -/
theorem Settled.unit_of_mem_progress (hr : r.Settled p o) {event : Event} (h : event ∈ r.progress) :
    event.unit = r.job.unit.name := by
  have hemission (e : Emission) (hemits : r.job.Emits p o e) (hsome : r.emission? = some e) :
      event.unit = r.job.unit.name := by
    rw [progress, hsome, Option.toList_some, List.flatMap_singleton, List.mem_append,
      List.mem_singleton] at h
    rcases h with h | rfl
    · obtain ⟨d, -, rfl⟩ := hemits
      exact Emission.unit_of_mem_progress h
    · rfl
  cases hr with
  | notRun f hnone hfailure hf =>
    rw [progress, hnone, Option.toList_none, List.flatMap_nil, List.nil_append,
      List.mem_singleton] at h
    rw [h]
    rfl
  | failed e cause hemits hsome => exact hemission e hemits hsome
  | done e hemits hsome => exact hemission e hemits hsome
  | undelivered e output f hemits hsome => exact hemission e hemits hsome

end JobResult

open Progress (Event Item Model)

/-- The row of a job whose unit's name no other job has: the events of the unit belong to it. -/
theorem index?_start_iff {jobs : List Job} {k : Nat} {job : Job} (hjob : jobs[k]? = some job)
    (hown : ∀ j other, jobs[j]? = some other → other.unit.name = job.unit.name → j = k)
    (title unit : String) :
    (Model.start title (jobs.map fun j => j.unit.name)).index? unit = some k ↔
      unit = job.unit.name := by
  rw [Model.index?_eq_some_iff]
  constructor
  · rintro ⟨⟨i, hi, rfl⟩, -⟩
    simp only [Model.start, List.map_map, List.getElem?_map, hjob, Option.map_some,
      Option.some.injEq] at hi
    rw [← hi]
    rfl
  · rintro rfl
    refine ⟨⟨{ name := job.unit.name }, by simp [Model.start, hjob], rfl⟩, ?_⟩
    intro j i hj hi hname
    simp only [Model.start, List.map_map, List.getElem?_map, Option.map_eq_some_iff] at hi
    obtain ⟨other, hother, rfl⟩ := hi
    have := hown j other hother hname
    omega

/-- What the progress view shows of a job that has a unit's name to itself, after its events and any
events of other units between them: an error if the job failed before its delivery, and else that it
is done. This is the truth about the job unless its delivery failed. -/
theorem rows_show_outcomes {σ Handle : Type} (fs : FileSystem (StateM σ) Handle) (stdout : Sink)
    (p : Profile) (o : Options) (atATime : Nat) (title : String) (s : σ) {jobs : List Job} {k : Nat}
    {job : Job} (hjob : jobs[k]? = some job)
    (hown : ∀ j other, jobs[j]? = some other → other.unit.name = job.unit.name → j = k) :
    ∃ r, ((runJobs fs stdout p o atATime [] jobs).run s).1[k]? = some r ∧ r.job = job ∧
      (∀ event ∈ r.progress, event.unit = job.unit.name) ∧
      ∀ events : List Event, events.filter (fun event => event.unit = job.unit.name) = r.progress →
        ∃ row, (events.foldl Model.apply
            (Model.start title (jobs.map fun j => j.unit.name))).items[k]? = some row ∧
          row.name = job.unit.name ∧
          (row.status = "error" ↔ ∃ f, r.failure? = some f ∧ f.isDelivery = false) ∧
          (row.status = "done" ↔ ∀ f, r.failure? = some f → f.isDelivery = true) ∧
          (((row.status = "error" ↔ r.failure? ≠ none) ∧
              (row.status = "done" ↔ r.failure? = none)) ↔
            ∀ f, r.failure? = some f → f.isDelivery = false) := by
  obtain ⟨results, hresults, hjobs, hsettled⟩ := runJobs_settle fs stdout p o atATime [] jobs s
  rw [List.nil_append] at hresults
  have hat : (results.map JobResult.job)[k]? = some job := hjobs ▸ hjob
  rw [List.getElem?_map] at hat
  obtain ⟨r, hr, rfl⟩ := Option.map_eq_some_iff.mp hat
  have hend := hsettled r (List.mem_of_getElem? hr)
  refine ⟨r, hresults ▸ hr, rfl, fun event h => hend.unit_of_mem_progress h, ?_⟩
  intro events hevents
  -- the job's row is made of the events of its unit, and those are the events of the job
  let row : Item := r.progress.foldl Item.apply { name := r.job.unit.name }
  have hrow : (events.foldl Model.apply
      (Model.start title (jobs.map fun j => j.unit.name))).items[k]? = some row := by
    rw [Model.getElem?_items_foldl]
    simp only [index?_start_iff hjob hown, hevents]
    simp [Model.start, hjob, row]
  have hstatus : row.status = r.verdict := by
    have hverdict := Item.verdict?_foldl (i := { name := r.job.unit.name }) rfl r.progress
    rw [hend.verdict_of_progress] at hverdict
    have hfinished := Item.isFinished_of_verdict? hverdict
    rw [Item.verdict?, if_pos hfinished] at hverdict
    exact Option.some.inj hverdict
  refine ⟨row, hrow, Item.name_foldl _ _, ?_⟩
  rw [hstatus, JobResult.verdict]
  cases hfailure : r.failure? with
  | none => simp
  | some f => cases hf : f.isDelivery <;> simp [hf]

/-- Two jobs, the second of which has no object. -/
def objectJobs : List Job :=
  [{ input := "empty.toml", output := "empty.o", unit := { name := "empty" } },
    { input := "unencoded.toml", output := "unencoded.o", unit := unencoded }]

/-- What becomes of the two in an empty tree. -/
def objectResults : List JobResult :=
  ((runJobs Tree.system .accepting Profile.host { fileKind := .obj } 2 [] objectJobs).run {}).1

/-- The view tells that the second job failed, also when the events of the first come in between. -/
theorem unencoded_shown_as_error :
    objectJobs[1]? = some { input := "unencoded.toml", output := "unencoded.o", unit := unencoded } ∧
      (∀ j other, objectJobs[j]? = some other → other.unit.name = unencoded.name → j = 1) ∧
      ∃ r, objectResults[1]? = some r ∧ r.failure? ≠ none ∧
        ∀ events : List Event, events.filter (fun event => event.unit = unencoded.name) = r.progress →
          ∃ row, (events.foldl Model.apply
            (Model.start "" (objectJobs.map fun j => j.unit.name))).items[1]? = some row ∧
            row.status = "error" := by
  have hown : ∀ j other, objectJobs[j]? = some other → other.unit.name = unencoded.name → j = 1 := by
    intro j other hother hname
    match j with
    | 0 => cases hother; exact absurd hname (by decide)
    | 1 => rfl
    | j + 2 => cases hother
  have hjob : objectJobs[1]? =
      some { input := "unencoded.toml", output := "unencoded.o", unit := unencoded } := rfl
  obtain ⟨r, hr, -, -, hrows⟩ := rows_show_outcomes Tree.system .accepting Profile.host
    { fileKind := .obj } 2 "" {} hjob hown
  have hfailures : objectResults[1]?.map JobResult.failure? =
      some (some (.emission (.unrendered (.object ⟨.func, "main", .noEncoding 0 "ret"⟩)))) := by
    decide +kernel
  have hfailure : r.failure? =
      some (.emission (.unrendered (.object ⟨.func, "main", .noEncoding 0 "ret"⟩))) := by
    rw [objectResults, hr] at hfailures
    exact Option.some.inj hfailures
  refine ⟨hjob, hown, r, hr, by simp [hfailure], fun events hevents => ?_⟩
  obtain ⟨row, hrow, -, herror, -⟩ := hrows events hevents
  exact ⟨row, hrow, herror.mpr ⟨_, hfailure, rfl⟩⟩

/-- A job whose output cannot be moved into its place: the driver has told that the unit is done,
and so the view shows a failed job as done. -/
theorem failed_delivery_shown_as_done :
    let job : Job := { input := "a.toml", output := "a.s", unit := { name := "a" } }
    let results := ((runJobs (Tree.system { rename? := some .busy }) .accepting Profile.host
      { fileKind := .asm } 1 [] [job]).run {}).1
    results.map JobResult.failure? =
        [some (.output [{ verb := "rename", paths := ["./.mcemit-0", "a.s"], cause := .busy }])] ∧
      results.map (fun r =>
        (r.progress.foldl Model.apply (Model.start "" ["a"])).items.map Item.status) =
        [["done"]] := by
  decide +kernel

end Command

end CodeEmission
