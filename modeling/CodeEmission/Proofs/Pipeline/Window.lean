import CodeEmission.Proofs.Pipeline.Lifecycle
import CodeEmission.Proofs.Pipeline.Verification
import CodeEmission.Proofs.Trace.Openings

/-!
# The Stages That a Driver Runs

A request may name a stage to start after and a stage to stop after. The stages between the two are
its window. A driver runs the stages of the window, in their order, up to the first that fails, and
it tells of those stages in its timer, in its progress events and in its trace.

* `Stage.FailsOn`: when a stage fails on a unit, and with what.
* `Driver.Accepted.exists_window`: an accepted request has a window.
* `runStages_traverses`: how the stages of a window run.
* `Driver.stages_run_in_window`: what a driver runs for a request that it accepted, and what is seen
  of it.
-/

namespace CodeEmission

variable {d : Driver} {o options : Options} {p : Profile} {u : CodeUnit}

/-! ## One stage -/

/-- The ways in which a stage fails on a unit. The unit after the stage is checked only on request
and only if the stage found no fault, and the stage's own check comes last. -/
inductive Stage.FailsOn (p : Profile) (checked : Bool) (s : Stage) (u : CodeUnit) :
    StageFailure → Prop where
  | run (hfaults : (s.run p u).faults ≠ []) :
    FailsOn p checked s u ⟨s.name, .failed (s.run p u).faults⟩
  | invalid (cause : VerifyError) (hchecked : checked = true) (hfaults : (s.run p u).faults = [])
    (hcause : verify (some (s.run p u).unit) = .error cause) :
    FailsOn p checked s u ⟨s.name, .invalid cause⟩
  | check (check : Profile → CodeUnit → Option StageFault) (fault : StageFault)
    (hchecked : checked = true) (hfaults : (s.run p u).faults = [])
    (hvalid : verify (some (s.run p u).unit) = .ok ()) (hcheck : s.check = some check)
    (hfault : check p (s.run p u).unit = some fault) :
    FailsOn p checked s u ⟨s.name, .checkFailed fault⟩

namespace Stage

variable {s : Stage} {checked : Bool} {f : StageFailure}

theorem failure?_eq_some_iff :
    s.failure? p checked (s.run p u) = some f ↔ s.FailsOn p checked u f := by
  constructor
  · intro h
    unfold failure? at h
    split at h
    next hfaults => exact Option.some.inj h ▸ .run hfaults
    next hfaults =>
      have hfaults := Decidable.not_not.mp hfaults
      split at h
      next hchecked =>
        split at h
        next cause hcause => exact Option.some.inj h ▸ .invalid cause hchecked hfaults hcause
        next hvalid =>
          obtain ⟨fault, hfault, rfl⟩ := Option.map_eq_some_iff.mp h
          obtain ⟨check, hcheck, hfault⟩ := Option.bind_eq_some_iff.mp hfault
          exact .check check fault hchecked hfaults hvalid hcheck hfault
      next => cases h
  · intro h
    cases h with
    | run hfaults => simp [failure?, hfaults]
    | invalid cause hchecked hfaults hcause => simp [failure?, hchecked, hfaults, hcause]
    | check check fault hchecked hfaults hvalid hcheck hfault =>
      simp [failure?, hchecked, hfaults, hvalid, hcheck, hfault]

theorem failure?_eq_none_iff :
    s.failure? p checked (s.run p u) = none ↔ ∀ f, ¬ s.FailsOn p checked u f := by
  simp only [Option.eq_none_iff_forall_ne_some, ne_eq, failure?_eq_some_iff]

namespace FailsOn

variable (h : s.FailsOn p checked u f)

include h

/-- A failure carries the name of the stage. -/
theorem stage_eq : f.stage = s.name := by
  cases h <;> rfl

/-- A failure is one of verification just if the stage itself found no fault. -/
theorem isVerification_iff : f.isVerification = true ↔ (s.run p u).faults = [] := by
  cases h with
  | run hfaults => simpa [StageFailure.isVerification] using hfaults
  | invalid cause hchecked hfaults hcause => simp [StageFailure.isVerification, hfaults]
  | check check fault hchecked hfaults hvalid hcheck hfault =>
    simp [StageFailure.isVerification, hfaults]

/-- Verification fails only where it was asked for. -/
theorem checked_of_isVerification (hf : f.isVerification = true) : checked = true := by
  cases h with
  | run hfaults => cases hf
  | invalid cause hchecked hfaults hcause => exact hchecked
  | check check fault hchecked hfaults hvalid hcheck hfault => exact hchecked

end FailsOn

/-- The step that a stage leaves when it is run on a unit. -/
def stepOn (p : Profile) (checked : Bool) (s : Stage) (u : CodeUnit) : StageStep :=
  { name := s.name, notes := (s.run p u).notes, failure? := s.failure? p checked (s.run p u) }

end Stage

/-! ## Stages in a row -/

/-- A unit after stages, each of which runs on the result of the one before. -/
def unitAfter (p : Profile) : List Stage → CodeUnit → CodeUnit
  | [], u => u
  | s :: rest, u => unitAfter p rest (s.run p u).unit

/-- The steps of stages, each of which runs on the result of the one before. -/
def stepsOn (p : Profile) (checked : Bool) : List Stage → CodeUnit → List StageStep
  | [], _ => []
  | s :: rest, u => s.stepOn p checked u :: stepsOn p checked rest (s.run p u).unit

theorem map_name_stepsOn (p : Profile) (checked : Bool) (stages : List Stage) (u : CodeUnit) :
    (stepsOn p checked stages u).map StageStep.name = stages.map Stage.name := by
  induction stages generalizing u with
  | nil => rfl
  | cons s rest ih => simp [stepsOn, Stage.stepOn, ih]

/-- A run goes through the first stages of a window: through all of them, or up to the first one
that fails. -/
structure StageRun.Traverses (p : Profile) (checked : Bool) (window : List Stage) (u : CodeUnit)
    (ran : List Stage) (r : StageRun) : Prop where
  isPrefix : ran <+: window
  steps : r.steps = stepsOn p checked ran u
  unit : r.unit = unitAfter p ran u
  /-- Every stage that another one was run after passed. -/
  passed : ∀ front s back, ran = front ++ s :: back → back ≠ [] →
    ∀ f, ¬ s.FailsOn p checked (unitAfter p front u) f
  /-- The run fails just if the last stage that was run does. -/
  failed : ∀ f, r.ending = .failed f ↔
    ∃ front s, ran = front ++ [s] ∧ s.FailsOn p checked (unitAfter p front u) f
  complete : (∀ f, r.ending ≠ .failed f) → ran = window

namespace StageRun.Traverses

variable {checked : Bool} {window ran : List Stage} {r : StageRun} {s : Stage}

/-- The run of no stage. -/
theorem nil (ending : Ending) (hending : ∀ f, ending ≠ .failed f) :
    StageRun.Traverses p checked [] u [] { steps := [], unit := u, ending } where
  isPrefix := List.nil_prefix
  steps := rfl
  unit := rfl
  passed := by simp
  failed := by simp [hending]
  complete := fun _ => rfl

/-- A stage that fails ends the run. -/
theorem cut {f : StageFailure} (hf : s.FailsOn p checked u f) (rest : List Stage) :
    StageRun.Traverses p checked (s :: rest) u [s]
      { steps := [s.stepOn p checked u], unit := (s.run p u).unit, ending := .failed f } where
  isPrefix := ⟨rest, rfl⟩
  steps := rfl
  unit := rfl
  passed := by
    intro front t back hparts hback
    -- there is one stage, so nothing stands behind it
    have hlength := congrArg List.length hparts
    have := List.length_pos_iff.mpr hback
    simp at hlength
    omega
  failed := by
    intro g
    constructor
    · rintro ⟨rfl⟩
      exact ⟨[], s, rfl, hf⟩
    · rintro ⟨front, t, hparts, hg⟩
      obtain ⟨rfl, ht⟩ : [] = front ∧ [s] = [t] := List.append_inj' hparts rfl
      cases ht
      exact congrArg Ending.failed (Option.some.inj
        ((Stage.failure?_eq_some_iff.mpr hf).symm.trans (Stage.failure?_eq_some_iff.mpr hg)))
  complete := fun hending => absurd rfl (hending f)

/-- A stage that passes goes in front of the run of the stages after it. -/
theorem cons (hs : ∀ f, ¬ s.FailsOn p checked u f)
    (h : r.Traverses p checked window (s.run p u).unit ran) :
    StageRun.Traverses p checked (s :: window) u (s :: ran)
      { r with steps := s.stepOn p checked u :: r.steps } where
  isPrefix := List.cons_prefix_cons.mpr ⟨rfl, h.isPrefix⟩
  steps := by rw [h.steps]; rfl
  unit := h.unit
  passed := by
    intro front t back hparts hback
    cases front with
    | nil =>
      obtain ⟨rfl, -⟩ := List.cons.inj hparts
      exact hs
    | cons first front =>
      obtain ⟨rfl, hrest⟩ := List.cons.inj hparts
      exact h.passed front t back hrest hback
  failed := by
    intro f
    refine (h.failed f).trans ⟨?_, ?_⟩
    · rintro ⟨front, t, rfl, ht⟩
      exact ⟨s :: front, t, rfl, ht⟩
    · rintro ⟨front, t, hparts, ht⟩
      cases front with
      | nil =>
        -- the first stage passed, so it is not the one that failed
        obtain ⟨rfl, -⟩ := List.cons.inj hparts
        exact absurd ht (hs f)
      | cons first front =>
        obtain ⟨rfl, hrest⟩ := List.cons.inj hparts
        exact ⟨front, t, hrest, ht⟩
  complete := fun hending => congrArg (s :: ·) (h.complete hending)

end StageRun.Traverses

/-! ## Windows -/

/-- The last of the stages is the one that is named. -/
def EndsWith (stages : List Stage) (name : String) : Prop :=
  stages.getLast?.map Stage.name = some name

/-- The stages to run end with the one to stop after. If there is none, nothing is left behind. -/
def StopsAt (stopAfter : String) (window behind : List Stage) : Prop :=
  if stopAfter = "" then behind = [] else EndsWith window stopAfter

/-- The window of a request in a list of stages: what stands before it ends with the stage to start
after, and the window itself ends with the stage to stop after. -/
structure IsWindow (o : Options) (stages before window behind : List Stage) : Prop where
  parts : stages = before ++ window ++ behind
  start : if o.startAfter = "" then before = [] else EndsWith before o.startAfter
  stop : StopsAt o.stopAfter window behind

/-- Stages of a window have names of their own if all stages have. -/
theorem IsWindow.nodup {stages before window behind : List Stage}
    (h : IsWindow o stages before window behind) (hdistinct : (stages.map Stage.name).Nodup) :
    (window.map Stage.name).Nodup := by
  have hsublist : window.Sublist stages := by
    rw [h.parts]
    exact (List.sublist_append_right before window).trans (List.sublist_append_left _ behind)
  exact hdistinct.sublist (hsublist.map Stage.name)

namespace StopsAt

variable {stopAfter : String} {s : Stage} {rest behind : List Stage}

/-- No list without stages ends with one. -/
theorem behind_eq_nil (h : StopsAt stopAfter [] behind) : behind = [] := by
  unfold StopsAt at h
  split at h
  · exact h
  · cases h

/-- A stage that is not the one to stop after leaves the end to the others. -/
theorem tail (h : StopsAt stopAfter (s :: rest) behind) (hname : s.name ≠ stopAfter) :
    StopsAt stopAfter rest behind := by
  unfold StopsAt at h ⊢
  split at h
  next hunset => rwa [if_pos hunset]
  next hset =>
    rw [if_neg hset]
    unfold EndsWith at h ⊢
    cases hlast : rest.getLast? with
    | none => exact absurd (by simpa [List.getLast?_cons, hlast] using h) hname
    | some last => simpa [List.getLast?_cons, hlast] using h

/-- The stage to stop after is the last one, since no other has its name. -/
theorem rest_eq_nil (h : StopsAt s.name (s :: rest) behind) (hname : s.name ≠ "")
    (hfresh : s.name ∉ rest.map Stage.name) : rest = [] := by
  rw [StopsAt, if_neg hname, EndsWith] at h
  cases hlast : rest.getLast? with
  | none => exact List.getLast?_eq_none_iff.mp hlast
  | some last =>
    have hsame : last.name = s.name := by simpa [List.getLast?_cons, hlast] using h
    exact absurd (hsame ▸ List.mem_map_of_mem (List.mem_of_getLast? hlast)) hfresh

end StopsAt

/-- The stages of a window run one after another, up to the first that fails. -/
theorem runStages_traverses {window behind : List Stage} (hstop : StopsAt o.stopAfter window behind)
    (hnames : ∀ s ∈ window, s.name ≠ "") (hdistinct : (window.map Stage.name).Nodup)
    (u : CodeUnit) :
    ∃ ran, (runStages p o (window ++ behind) u).Traverses p o.verify window u ran := by
  induction window generalizing u with
  | nil =>
    rw [hstop.behind_eq_nil]
    exact ⟨[], .nil .finished (by simp)⟩
  | cons s rest ih =>
    obtain ⟨hfresh, hdistinct⟩ := List.nodup_cons.mp hdistinct
    rw [List.cons_append, runStages]
    dsimp only
    split
    next f hf =>
      refine ⟨[s], ?_⟩
      have hcut := StageRun.Traverses.cut (Stage.failure?_eq_some_iff.mp hf) rest
      rwa [Stage.stepOn, hf] at hcut
    next hnone =>
      have hpassed := Stage.failure?_eq_none_iff.mp hnone
      have hstep : s.stepOn p o.verify u = { name := s.name, notes := (s.run p u).notes } := by
        rw [Stage.stepOn, hnone]
      split
      next hname =>
        -- the run stops here, and so does the window
        rw [← hname] at hstop
        rw [hstop.rest_eq_nil (hnames s List.mem_cons_self) hfresh]
        have hlast := (StageRun.Traverses.nil .stopped (by simp)).cons hpassed
        rw [hstep] at hlast
        exact ⟨[s], hlast⟩
      next hname =>
        obtain ⟨ran, hran⟩ := ih (hstop.tail hname)
          (fun t ht => hnames t (List.mem_cons_of_mem _ ht)) hdistinct (s.run p u).unit
        have hall := hran.cons hpassed
        rw [hstep] at hall
        exact ⟨s :: ran, hall⟩

/-! ## How a run ends -/

theorem stopAfter_mem_of_stopped {stages : List Stage}
    (h : (runStages p o stages u).ending = .stopped) : o.stopAfter ∈ stages.map Stage.name := by
  induction stages generalizing u with
  | nil => cases h
  | cons s rest ih =>
    rw [runStages] at h
    dsimp only at h
    split at h
    · cases h
    · split at h
      next hname => exact hname ▸ List.mem_cons_self
      next => exact List.mem_cons_of_mem _ (ih h)

theorem stopAfter_not_mem_of_finished {stages : List Stage}
    (h : (runStages p o stages u).ending = .finished) : o.stopAfter ∉ stages.map Stage.name := by
  induction stages generalizing u with
  | nil => nofun
  | cons s rest ih =>
    rw [runStages] at h
    dsimp only at h
    split at h
    · cases h
    · split at h
      · cases h
      next hname =>
        rw [List.map_cons, List.mem_cons, not_or]
        exact ⟨fun hsame => hname hsame.symm, ih h⟩

/-- A run that no stage fails is finished just if there is no stage to stop after. -/
theorem finished_iff {window behind : List Stage} (hstop : StopsAt o.stopAfter window behind)
    (hnames : ∀ s ∈ window ++ behind, s.name ≠ "") :
    (runStages p o (window ++ behind) u).ending = .finished ↔
      (∀ f, (runStages p o (window ++ behind) u).ending ≠ .failed f) ∧ o.stopAfter = "" := by
  constructor
  · intro h
    refine ⟨fun f hf => ?_, ?_⟩
    · rw [h] at hf
      cases hf
    · by_contra hset
      rw [StopsAt, if_neg hset] at hstop
      obtain ⟨last, hlast, hname⟩ := Option.map_eq_some_iff.mp hstop
      refine stopAfter_not_mem_of_finished h (hname ▸ List.mem_map_of_mem ?_)
      exact List.mem_append_left _ (List.mem_of_getLast? hlast)
  · rintro ⟨hpassed, hunset⟩
    cases hending : (runStages p o (window ++ behind) u).ending with
    | finished => rfl
    | failed f => exact absurd hending (hpassed f)
    | stopped =>
      obtain ⟨s, hs, hname⟩ := List.mem_map.mp (stopAfter_mem_of_stopped hending)
      exact absurd (hname.trans hunset) (hnames s hs)

/-! ## The window of an accepted request -/

theorem firstRepeated?_eq_none {seen names : List String} (h : firstRepeated? seen names = none) :
    names.Nodup ∧ ∀ name ∈ names, name ∉ seen := by
  induction names generalizing seen with
  | nil => exact ⟨List.nodup_nil, nofun⟩
  | cons name rest ih =>
    unfold firstRepeated? at h
    split at h
    · cases h
    next hnew =>
      obtain ⟨hdistinct, hfresh⟩ := ih h
      refine ⟨List.nodup_cons.mpr ⟨fun hmem => hfresh name hmem List.mem_cons_self, hdistinct⟩, ?_⟩
      intro other hother
      rcases List.mem_cons.mp hother with rfl | hother
      · exact hnew
      · exact fun hseen => hfresh other hother (List.mem_cons_of_mem _ hseen)

/-- A name that was found stands at its place. -/
theorem Driver.place?_eq_ok {name : String} {unknown : String → ConfigureError} {place : Option Nat}
    (h : d.place? name unknown = .ok place) (hname : name ≠ "") :
    ∃ i, place = some i ∧ d.stageNames.findIdx? (· = name) = some i ∧
      EndsWith (d.stages.take (i + 1)) name := by
  rw [place?, if_neg hname] at h
  split at h
  next i hi =>
    refine ⟨i, (Except.ok.inj h).symm, hi, ?_⟩
    obtain ⟨hlt, hfound, -⟩ := List.findIdx?_eq_some_iff_getElem.mp hi
    have hlt : i < d.stages.length := by simpa [stageNames] using hlt
    rw [EndsWith, List.getLast?_take]
    simpa [stageNames, hlt] using hfound
  next => cases h

/-- A window from the numbers of stages up to its two ends. -/
theorem isWindow_of_counts {stages : List Stage} {start stop : Nat} (hle : start ≤ stop)
    (hstart : if o.startAfter = "" then start = 0 else EndsWith (stages.take start) o.startAfter)
    (hstop : if o.stopAfter = "" then stages.length ≤ stop
      else start < (stages.take stop).length ∧ EndsWith (stages.take stop) o.stopAfter) :
    IsWindow o stages (stages.take start) ((stages.take stop).drop start) (stages.drop stop) where
  parts := by
    calc stages = stages.take stop ++ stages.drop stop := (List.take_append_drop ..).symm
      _ = ((stages.take stop).take start ++ (stages.take stop).drop start) ++ stages.drop stop := by
        rw [List.take_append_drop start (stages.take stop)]
      _ = stages.take start ++ (stages.take stop).drop start ++ stages.drop stop := by
        rw [List.take_take, Nat.min_eq_left hle]
  start := by
    split at hstart
    next hunset => rw [if_pos hunset, hstart, List.take_zero]
    next hset => rwa [if_neg hset]
  stop := by
    unfold StopsAt
    split at hstop
    next hunset => rwa [if_pos hunset, List.drop_eq_nil_iff]
    next hset =>
      -- the window is not empty, so its last stage is the last one up to its end
      rw [if_neg hset, EndsWith, List.getLast?_drop, if_neg (Nat.not_le.mpr hstop.1)]
      exact hstop.2

/-- An accepted request has a window, and the stages before it are those that are skipped. -/
theorem Driver.Accepted.exists_window (h : d.Accepted o options) :
    ∃ before window behind, IsWindow o d.stages before window behind ∧
      before.length = { d with options }.skipCount := by
  obtain ⟨start, stop, hstart, hstop, horder⟩ := h.places
  obtain ⟨kind, -, rfl⟩ := h.kind
  -- the end of the window, as a number of stages, for a beginning that lies before it
  have hend (first : Nat) (hfirst : ∀ j, stop = some j → first ≤ j)
      (hle : first ≤ d.stages.length) :
      ∃ last, first ≤ last ∧ if o.stopAfter = "" then d.stages.length ≤ last
        else first < (d.stages.take last).length ∧ EndsWith (d.stages.take last) o.stopAfter := by
    by_cases hunset : o.stopAfter = ""
    · exact ⟨d.stages.length, hle, by rw [if_pos hunset]⟩
    · obtain ⟨j, hj, hfound, hends⟩ := place?_eq_ok hstop hunset
      obtain ⟨hlt, -⟩ := List.findIdx?_eq_some_iff_getElem.mp hfound
      have hlt : j < d.stages.length := by simpa [stageNames] using hlt
      have hbefore := hfirst j hj
      refine ⟨j + 1, by omega, ?_⟩
      rw [if_neg hunset, List.length_take]
      exact ⟨by omega, hends⟩
  by_cases hunset : o.startAfter = ""
  · obtain ⟨last, hle, hlast⟩ := hend 0 (fun _ _ => Nat.zero_le _) (Nat.zero_le _)
    refine ⟨_, _, _, isWindow_of_counts hle (by rw [if_pos hunset]) hlast, ?_⟩
    simp [skipCount, hunset]
  · obtain ⟨i, hi, hfound, hends⟩ := place?_eq_ok hstart hunset
    obtain ⟨hlt, -⟩ := List.findIdx?_eq_some_iff_getElem.mp hfound
    have hlt : i < d.stages.length := by simpa [stageNames] using hlt
    obtain ⟨last, hle, hlast⟩ := hend (i + 1) (fun j hj => horder i j hi hj) hlt
    refine ⟨_, _, _, isWindow_of_counts hle (by rwa [if_neg hunset]) hlast, ?_⟩
    have hskip : { d with options := { o with fileKind := kind } }.skipCount = i + 1 := by
      simp only [skipCount, if_neg hunset]
      rw [show stageNames { d with options := { o with fileKind := kind } } = d.stageNames from rfl,
        hfound]
    rw [hskip, List.length_take]
    omega

/-! ## What is seen of a run -/

namespace Emission

/-- The stages that progress events say were at work. -/
def workedOn (e : Emission) : List String :=
  (e.progress.filter fun event => event.status = .working).map Progress.Event.stage

theorem workedOn_eq (e : Emission) : e.workedOn = e.executed := by
  have hstep (s : StageStep) :
      ((s.progress e.unitName).filter fun event => event.status = .working).map
        Progress.Event.stage = [s.name] := by
    cases hfailure : s.failure? <;> simp [StageStep.progress, hfailure]
  have hsteps : ((e.run.steps.flatMap (StageStep.progress e.unitName)).filter
      fun event => event.status = .working).map Progress.Event.stage = e.executed := by
    rw [List.filter_flatMap, List.map_flatMap, executed, List.map_eq_flatMap]
    exact List.flatMap_congr fun s _ => hstep s
  have hwrite : (e.write?.toList.map (WriteStep.progress e.unitName)).filter
      (fun event => event.status = .working) = [] := by
    rw [List.filter_eq_nil_iff]
    intro event hevent
    obtain ⟨w, -, rfl⟩ := List.mem_map.mp hevent
    cases hfailure : w.failure? <;> simp [WriteStep.progress, hfailure]
  -- the first event says that the unit waits
  rw [workedOn, progress, List.filter_append, hwrite, List.append_nil,
    List.filter_cons_of_neg (by simp), hsteps]

/-- The stage spans that the log of a run opens: one for each stage, and one for the writing. -/
theorem openings_acts (e : Emission) :
    e.acts.filterMap (Trace.Act.opening? .stage) =
      e.executed.map ("stage:" ++ ·) ++
        if e.write?.isSome then ["write:" ++ e.kind.text] else [] := by
  have hstep (s : StageStep) :
      s.acts.filterMap (Trace.Act.opening? .stage) = ["stage:" ++ s.name] := by
    cases hfailure : s.failure? <;>
      simp [StageStep.acts, Trace.Act.opening?, hfailure, List.filterMap_map, Function.comp_def]
  have hsteps : (e.run.steps.flatMap StageStep.acts).filterMap (Trace.Act.opening? .stage) =
      e.executed.map ("stage:" ++ ·) := by
    rw [List.filterMap_flatMap, executed, List.map_map, List.map_eq_flatMap]
    exact List.flatMap_congr fun s _ => hstep s
  have hwrite : (e.write?.toList.flatMap (WriteStep.acts e.kind)).filterMap
      (Trace.Act.opening? .stage) = if e.write?.isSome then ["write:" ++ e.kind.text] else [] := by
    cases hw : e.write? with
    | none => rfl
    | some w => cases w <;> simp [WriteStep.acts, Trace.Act.opening?]
  -- the unit has a span of another scope, and skipped stages are noted without one
  have hskipped : (e.skipped.map fun name => Trace.Act.point .stage ("stage:" ++ name)
      "skipped").filterMap (Trace.Act.opening? .stage) = [] := by
    simp [Trace.Act.opening?, List.filterMap_eq_nil_iff]
  have hunit : (Trace.Act.opens .unit ("unit:" ++ e.unitName)).opening? .stage = none := rfl
  rw [acts, List.filterMap_append, List.filterMap_append, List.filterMap_append,
    List.filterMap_cons_none hunit, hskipped, hsteps, hwrite]
  cases hfailure : e.failure? <;> simp [Trace.Act.opening?]

/-- An emission fails in a stage just if its run of stages does. -/
theorem failure?_eq_stage_iff (e : Emission) (f : StageFailure) :
    e.failure? = some (.stage f) ↔ e.run.ending = .failed f := by
  unfold failure?
  split <;> simp_all

/-- A kind that a driver accepts has a rendering unless it is the one that writes nothing. -/
theorem isSome_render?_iff {given kind : FileKind} (h : Driver.acceptKind given = .ok kind) :
    (kind.render? p u).isSome = true ↔ kind ≠ .null := by
  cases kind with
  | asm | obj => simp [FileKind.render?]
  | null => simp [FileKind.render?]
  | other name =>
    unfold Driver.acceptKind at h
    split at h <;> simp_all

/-- Something is written just if the run of the stages is finished and the kind is one to write. -/
theorem isSome_write?_iff {given : FileKind} {sink : Sink}
    (hkind : Driver.acceptKind given = .ok d.options.fileKind) :
    (ofDriver d p u sink).write?.isSome = true ↔
      (ofDriver d p u sink).run.ending = .finished ∧ d.options.fileKind ≠ .null := by
  by_cases hfinished : (ofDriver d p u sink).run.ending = .finished
  · rw [write?_of_finished hfinished, WriteStep.ofUnit?, Option.isSome_map,
      isSome_render?_iff hkind]
    simp [hfinished]
  · simp [write?_of_not_finished hfinished, hfinished]

end Emission

/-- A driver that accepted a request, for stages that have names, runs the window of the request up
to the first stage that fails. Each stage runs on the result of the one before. A failure is that of
the last stage that was run and carries its name; it is a failure of verification if the stage
itself went well, which is looked at on request only. Something is written if no stage failed, none
was to be stopped after and the kind is one to write. The timed phases, the stages that progress
events show at work and the stage spans of a trace that is fine enough for them are those of the
stages that were run, with one more phase and span for the writing. -/
theorem Driver.stages_run_in_window {profile? : Option Profile} {stages : List Stage} {sink : Sink}
    (hnames : ∀ s ∈ stages, s.name ≠ "") (hd : (fresh profile? stages).configure o = .ok d)
    (u : CodeUnit) (hsink : sink = .absent → d.options.fileKind = .null) :
    ∃ p e d' before window behind ran, profile? = some p ∧ d.emit (some u) sink = .ok (e, d') ∧
      (stages.map Stage.name).Nodup ∧ IsWindow o stages before window behind ∧
      e.run.Traverses p o.verify window u ran ∧ e.executed = ran.map Stage.name ∧
      (∀ f, e.failure? = some (.stage f) ↔ e.run.ending = .failed f) ∧
      (∀ f, e.failure? = some (.stage f) → ∃ (front : List Stage) (s : Stage), ran = front ++ [s] ∧
        f.stage = s.name ∧
        (f.isVerification = true ↔ (s.run p (unitAfter p front u)).faults = []) ∧
        (f.isVerification = true → o.verify = true)) ∧
      (e.write?.isSome = true ↔ (∀ f, e.failure? ≠ some (.stage f)) ∧ o.stopAfter = "" ∧
        d.options.fileKind ≠ .null) ∧
      d'.timer.phases.map Timing.Phase.name =
        e.executed ++ (if e.write?.isSome then ["write"] else []) ∧
      e.workedOn = e.executed ∧
      ∀ (q : Trace.Request) (tracer : Trace.Tracer) (lastSeq lastSpan caller : UInt64) (now : Int),
        q.level ∈ [.phase, .detail, .debug] → q.tracer = .ok tracer →
        (Trace.play caller e.acts { tracer, lastSeq, lastSpan, now }).ShowsSpans q .stage
          (e.executed.map ("stage:" ++ ·) ++
            if e.write?.isSome then ["write:" ++ d.options.fileKind.text] else []) := by
  obtain ⟨options, haccept, rfl⟩ := configure_eq_ok hd
  have haccepted := accepted_of_accept haccept
  obtain ⟨p, hprofile⟩ := Option.isSome_iff_exists.mp haccepted.profile
  obtain ⟨hdistinct, -⟩ := firstRepeated?_eq_none haccepted.distinct
  obtain ⟨before, window, behind, hwindow, hskip⟩ := haccepted.exists_window
  obtain ⟨kind, hkind, rfl⟩ := haccepted.kind
  let d : Driver :=
    { fresh profile? stages with options := { o with fileKind := kind }, state := .configured }
  obtain ⟨d', hemit⟩ := exists_emit_eq_ok (d := d) (u := u) hprofile rfl hsink
  obtain ⟨-, -, -, -, -, -, -, -, -, -, htimer, -⟩ := emit_eq_ok hemit
  -- what is left after the skipped stages is the window and what stands behind it
  have hparts : stages = before ++ window ++ behind := hwindow.parts
  have hleft : stages.drop d.skipCount = window ++ behind := by
    rw [← show before.length = d.skipCount from hskip, hparts, List.append_assoc, List.drop_left]
  let e := Emission.ofDriver d p u sink
  have hrun : e.run = runStages p d.options (window ++ behind) u := by
    rw [← hleft]
    rfl
  have hnamed : ∀ s ∈ window ++ behind, s.name ≠ "" :=
    fun s hs => hnames s (List.mem_of_mem_drop (hleft ▸ hs))
  obtain ⟨ran, hran⟩ := runStages_traverses (p := p) (o := d.options) hwindow.stop
    (fun s hs => hnamed s (List.mem_append_left _ hs)) (hwindow.nodup hdistinct) u
  rw [← hrun] at hran
  have hexecuted : e.executed = ran.map Stage.name := by
    rw [Emission.executed, hran.steps, map_name_stepsOn]
  refine ⟨p, e, d', before, window, behind, ran, hprofile, hemit, hdistinct, hwindow, hran,
    hexecuted, e.failure?_eq_stage_iff, fun f hf => ?_, ?_, ?_, e.workedOn_eq, ?_⟩
  · obtain ⟨front, s, hlast, hs⟩ := (hran.failed f).mp ((e.failure?_eq_stage_iff f).mp hf)
    exact ⟨front, s, hlast, hs.stage_eq, hs.isVerification_iff, hs.checked_of_isVerification⟩
  · simp only [ne_eq, e.failure?_eq_stage_iff]
    rw [Emission.isSome_write?_iff (d := d) hkind, ← and_assoc]
    refine and_congr_left' ?_
    rw [hrun]
    exact finished_iff (o := d.options) hwindow.stop hnamed
  · show d'.timer.phases.map Timing.Phase.name = e.phases
    rw [htimer]
    show ([] ++ e.phases.map fun name => ({ name := name } : Timing.Phase)).map Timing.Phase.name = e.phases
    simp [Function.comp_def]
  · intro q tracer lastSeq lastSpan caller now hlevel htracer
    have hadmits : q.level.admits .stage = true := by
      simp only [List.mem_cons, List.not_mem_nil, or_false] at hlevel
      rcases hlevel with hlevel | hlevel | hlevel <;> rw [hlevel] <;> rfl
    have hshown := Trace.Recorder.showsSpans_play hadmits htracer lastSeq lastSpan now caller e.acts
    rwa [e.openings_acts] at hshown

/-- A request to run what comes after legalization, with checks. -/
def afterLegalization : Options :=
  { fileKind := .obj, verify := true, startAfter := "legalize" }

/-- A driver for the host that was given this request. -/
def lateDriver : Driver :=
  { Driver.fresh (some Profile.host) Stage.standard with
    options := afterLegalization, state := .configured }

/-- Two names that become one symbol: of the three stages of the window only mangling runs, since
the check after it fails, and nothing is written. -/
theorem two_spellings_end_the_window :
    (∀ s ∈ Stage.standard, s.name ≠ "") ∧
      (Driver.fresh (some Profile.host) Stage.standard).configure afterLegalization =
        .ok lateDriver ∧
      ∃ e d', lateDriver.emit (some twoSpellings) .accepting = .ok (e, d') ∧
        e.executed = ["mangle"] ∧ e.workedOn = ["mangle"] ∧ e.write? = none ∧
        d'.timer.phases.map Timing.Phase.name = ["mangle"] ∧
        ∃ f, e.failure? = some (.stage f) ∧ f.stage = "mangle" ∧ f.isVerification = true := by
  have hnames : ∀ s ∈ Stage.standard, s.name ≠ "" := by decide
  have hd : (Driver.fresh (some Profile.host) Stage.standard).configure afterLegalization =
      .ok lateDriver := rfl
  have hsink : Sink.accepting = .absent → lateDriver.options.fileKind = .null := nofun
  obtain ⟨p, e, d', before, window, behind, ran, ⟨rfl⟩, hemit, -, -, -, -, -, -, -, hphases,
    hworked, -⟩ := Driver.stages_run_in_window hnames hd twoSpellings hsink
  obtain ⟨u, p, ⟨rfl⟩, ⟨rfl⟩, -, -, he, -⟩ := Driver.emit_eq_ok hemit
  obtain ⟨hexecuted, hwrite, hf⟩ : e.executed = ["mangle"] ∧ e.write? = none ∧ e.failure? =
      some (.stage ⟨"mangle", .invalid (.problems [.redefinition .data "K" .func])⟩) := by
    rw [he]
    decide +kernel
  refine ⟨hnames, hd, e, d', hemit, hexecuted, hworked.trans hexecuted, hwrite, ?_, _, hf, rfl, rfl⟩
  rw [hphases, hexecuted, hwrite]
  rfl

end CodeEmission
