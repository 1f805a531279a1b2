import CodeEmission.Proofs.Pipeline.Resumption

/-!
# What Reaches the Sink

A driver whose stages all ran hands the rendering of the unit to its sink, in one piece. It writes
nothing if it stopped before, and it stops after the stage whose name is the one that the request
gives. A request that gives none leaves the empty text in that place, which a stage may have for its
name.

* `Emission.delivers_iff`: an emission that does not fail delivers its unit unless it stops.
* `Driver.answer_stopped_last`: a request that stops after the last stage.
* `Driver.unstopped_run_delivers_iff`: what comes of a request that gives no stage to stop after.
-/

namespace CodeEmission

variable {d : Driver} {o options : Options} {p : Profile} {u : CodeUnit} {sink : Sink}

/-! ## Delivered units -/

/-- Only a request for nothing is accepted as one for nothing. -/
theorem Driver.ne_null_of_acceptKind {given kind : FileKind} (h : acceptKind given = .ok kind)
    (hgiven : given ≠ .null) : kind ≠ .null := by
  rintro rfl
  unfold acceptKind at h
  split at h <;> simp_all

namespace Emission

/-- An emission delivers a unit if the sink was written to once and took the whole rendering of the
unit. -/
def Delivers (p : Profile) (kind : FileKind) (u : CodeUnit) (e : Emission) : Prop :=
  e.writes = 1 ∧ ∃ output, kind.render? p u = some (.ok output) ∧ e.output? = some output

/-- What was written tells whether the emission failed. -/
theorem isSome_failure?_of_write? {w : WriteStep} (h : (ofDriver d p u sink).write? = some w) :
    (ofDriver d p u sink).failure?.isSome = w.failure?.isSome := by
  have hfinished : (ofDriver d p u sink).run.ending = .finished := by
    by_contra hnot
    rw [write?_of_not_finished hnot] at h
    cases h
  cases w <;> simp [failure?, hfinished, h, WriteStep.failure?]

/-- Nothing is written if the stage to stop after is one of those to run. -/
theorem write?_of_mem (h : d.options.stopAfter ∈ (d.stages.drop d.skipCount).map Stage.name) :
    (ofDriver d p u sink).write? = none :=
  write?_of_not_finished fun hfinished => stopAfter_not_mem_of_finished hfinished h

section NoFailure

variable (hnone : (ofDriver d p u sink).failure? = none)

include hnone

/-- Without a failure all stages were run, unless one of them was the one to stop after. -/
theorem finished_iff_not_mem :
    (ofDriver d p u sink).run.ending = .finished ↔
      d.options.stopAfter ∉ (d.stages.drop d.skipCount).map Stage.name := by
  refine ⟨stopAfter_not_mem_of_finished, fun hgoes => ?_⟩
  cases hending : (ofDriver d p u sink).run.ending with
  | finished => rfl
  | stopped => exact absurd (stopAfter_mem_of_stopped hending) hgoes
  | failed f =>
    rw [(failure?_eq_stage_iff _ f).mpr hending] at hnone
    cases hnone

/-- Without a failure the result of all stages is written, if the kind of output is one to write. -/
theorem exists_written_of_finished {given : FileKind}
    (hkind : Driver.acceptKind given = .ok d.options.fileKind) (hgiven : given ≠ .null)
    (hfinished : (ofDriver d p u sink).run.ending = .finished) :
    ∃ output, d.options.fileKind.render? p (ofDriver d p u sink).run.unit = some (.ok output) ∧
      (ofDriver d p u sink).write? = some (.written output) := by
  have hrenders : (d.options.fileKind.render? p (ofDriver d p u sink).run.unit).isSome = true :=
    (isSome_render?_iff hkind).mpr (Driver.ne_null_of_acceptKind hkind hgiven)
  obtain ⟨rendered, hrendered⟩ := Option.isSome_iff_exists.mp hrenders
  have hwrite := write?_of_finished hfinished
  rw [WriteStep.ofUnit?, hrendered, Option.map_some] at hwrite
  have hsame := isSome_failure?_of_write? hwrite
  rw [hnone] at hsame
  -- a unit that cannot be rendered and a sink that fails would both have been reported
  cases rendered with
  | error cause => cases hsame
  | ok output =>
    refine ⟨output, hrendered, ?_⟩
    cases sink with
    | accepting => exact hwrite
    | absent => exact hwrite
    | failing text => cases hsame

/-- An emission that does not fail delivers the result of all its stages, unless it stops after one
of them. -/
theorem delivers_iff {given : FileKind}
    (hkind : Driver.acceptKind given = .ok d.options.fileKind) (hgiven : given ≠ .null) :
    (ofDriver d p u sink).Delivers p d.options.fileKind
        (unitAfter p (d.stages.drop d.skipCount) u) ↔
      d.options.stopAfter ∉ (d.stages.drop d.skipCount).map Stage.name := by
  rw [← finished_iff_not_mem hnone]
  constructor
  · rintro ⟨hwrites, -⟩
    by_contra hnot
    rw [writes, write?_of_not_finished hnot] at hwrites
    cases hwrites
  · intro hfinished
    have hunit : (ofDriver d p u sink).run.unit = unitAfter p (d.stages.drop d.skipCount) u :=
      congrArg StageRun.unit (runStages_of_finished hfinished)
    obtain ⟨output, hrender, hwrite⟩ := exists_written_of_finished hnone hkind hgiven hfinished
    rw [hunit] at hrender
    exact ⟨by rw [writes, hwrite]; rfl, output, hrender, by rw [output?, hwrite]; rfl⟩

end NoFailure

end Emission

/-! ## Stopping after the last stage -/

/-- A last stage leaves its step behind, be it the one to stop after or not. -/
theorem steps_runStages_singleton (s : Stage) :
    (runStages p o [s] u).steps = [s.stepOn p o.verify u] := by
  rw [runStages, Stage.stepOn]
  dsimp only
  split
  next f hf => rw [hf]
  next hnone =>
    rw [hnone]
    split <;> rfl

/-- Two requests that go on after all stages but the last one have the same steps. -/
theorem steps_runStages_concat {o' : Options} {front : List Stage} {last : Stage}
    (hverify : o.verify = o'.verify)
    (hstop : ∀ s ∈ front, s.name = o.stopAfter ↔ s.name = o'.stopAfter) :
    (runStages p o (front ++ [last]) u).steps = (runStages p o' (front ++ [last]) u).steps := by
  rw [runStages_append, runStages_append, runStages_congr hverify hstop]
  -- the last stage is reached just if the others are finished
  obtain ⟨steps, unit, ending⟩ := runStages p o' front u
  cases ending with
  | finished =>
    simp only [StageRun.andThen_of_finished, steps_runStages_singleton, hverify]
  | stopped => rfl
  | failed f => rfl

namespace Driver

/-- What a driver replies if it is given a request and then asked to emit a unit. -/
def answer (d : Driver) (o : Options) (u : CodeUnit) (sink : Sink) : Reply :=
  ((d.exchange (.configure o)).after.exchange (.emit (some u) sink)).reply

theorem answer_of_emit {d' : Driver} {e : Emission} (hd : d.configure o = .ok d')
    (he : ∃ d'', d'.emit (some u) sink = .ok (e, d'')) : d.answer o u sink = .emitted e := by
  obtain ⟨d'', hemit⟩ := he
  simp only [answer, exchange, hd, hemit]

/-- A driver that refuses the request stays idle, and then it emits nothing. -/
theorem answer_of_refused {cause : ConfigureError} (hidle : d.state = .idle)
    (hd : d.configure o = .error cause) : d.answer o u sink = .refused (.wrongState .idle) := by
  simp [answer, exchange, hd, emit, hidle]

/-- No request is accepted to start and to stop after the same stage. -/
theorem Accepted.startAfter_ne (h : d.Accepted o options) (hset : o.startAfter ≠ "") :
    o.startAfter ≠ o.stopAfter := by
  intro hsame
  obtain ⟨start, stop, hstart, hstop, horder⟩ := h.places
  obtain ⟨i, rfl, hi, -⟩ := place?_eq_ok hstart hset
  obtain ⟨j, rfl, hj, -⟩ := place?_eq_ok hstop (hsame ▸ hset)
  rw [hsame] at hi
  obtain rfl : i = j := Option.some.inj (hi.symm.trans hj)
  exact absurd (horder i i rfl rfl) (Nat.lt_irrefl i)

/-- A stage that is not the last one stands before it. -/
theorem lt_length_of_findIdx? {front : List Stage} {last : Stage} {name : String} {i : Nat}
    (hstages : d.stages = front ++ [last]) (hother : name ≠ last.name)
    (h : d.stageNames.findIdx? (· = name) = some i) : i < front.length := by
  have hlast : [last.name].findIdx? (· = name) = none := by simp [hother.symm]
  rw [stageNames, hstages, List.map_append, List.findIdx?_append, List.map_singleton, hlast,
    Option.map_none, Option.or_none] at h
  obtain ⟨hlt, -⟩ := List.findIdx?_eq_some_iff_getElem.mp h
  simpa using hlt

section Last

variable {stages front : List Stage} {last : Stage} (hstages : stages = front ++ [last])
  (hstart : o.startAfter = "" ∨ o.startAfter ≠ last.name)

include hstages hstart

/-- A request that starts before the last stage may be given the last stage to stop after. -/
theorem Accepted.stopLast (h : (fresh (some p) stages).Accepted o options) :
    (fresh (some p) stages).Accepted { o with stopAfter := last.name }
      { options with stopAfter := last.name } where
  idle := rfl
  profile := rfl
  kind := by
    obtain ⟨kind, hkind, rfl⟩ := h.kind
    exact ⟨kind, hkind, rfl⟩
  distinct := h.distinct
  places := by
    obtain ⟨hdistinct, -⟩ := firstRepeated?_eq_none h.distinct
    obtain ⟨start, -, hplace, -, -⟩ := h.places
    by_cases hname : last.name = ""
    · refine ⟨start, none, hplace, ?_, nofun⟩
      simp [place?, hname]
    · refine ⟨start, some front.length, hplace,
        place?_of_parts hstages (name_not_mem_front hstages hdistinct) hname _, ?_⟩
      rintro i j rfl ⟨rfl⟩
      obtain ⟨hset, hfound⟩ := place?_eq_some hplace
      exact lt_length_of_findIdx? hstages (hstart.resolve_left hset) hfound

/-- A driver that starts before the last stage has it left to run. -/
theorem drop_skipCount_of_last (hd : d.stages = stages)
    (hoptions : d.options.startAfter = o.startAfter) :
    stages.drop d.skipCount = front.drop d.skipCount ++ [last] := by
  have hle : d.skipCount ≤ front.length := by
    unfold skipCount
    rw [hoptions]
    split
    · exact Nat.zero_le _
    next hset =>
      split
      next i hi => exact lt_length_of_findIdx? (hd.trans hstages) (hstart.resolve_left hset) hi
      next => exact Nat.zero_le _
  rw [hstages, List.drop_append_of_le_length hle]

/-- A run that stops after the last stage writes nothing, and it runs the same stages as the run
that goes on from there, if none of them has the empty name. -/
theorem answer_stopped_last (hd : (fresh (some p) stages).configure o = .ok d)
    (hstop : o.stopAfter = "") (u : CodeUnit) (sink : Sink)
    (hsink : sink = .absent → d.options.fileKind = .null) :
    ∃ e, (fresh (some p) stages).answer { o with stopAfter := last.name } u sink = .emitted e ∧
      e.writes = 0 ∧ ((∀ s ∈ stages.drop d.skipCount, s.name ≠ "") →
        e.executed = (Emission.ofDriver d p u sink).executed) := by
  obtain ⟨options, haccepted, rfl⟩ := configure_eq_ok_iff.mp hd
  obtain ⟨hdistinct, -⟩ := firstRepeated?_eq_none haccepted.distinct
  have hstopped := haccepted.stopLast hstages hstart
  obtain ⟨kind, -, rfl⟩ := haccepted.kind
  let d : Driver := { fresh (some p) stages with
    options := { o with fileKind := kind }, state := .configured }
  let d' : Driver := { fresh (some p) stages with
    options := { o with fileKind := kind, stopAfter := last.name }, state := .configured }
  have hd' : (fresh (some p) stages).configure { o with stopAfter := last.name } = .ok d' :=
    configure_eq_ok_iff.mpr ⟨_, hstopped, rfl⟩
  let e := Emission.ofDriver d p u sink
  let e' := Emission.ofDriver d' p u sink
  -- both have the same stages to run, the last of which is the one to stop after or is not
  have hleft : stages.drop d.skipCount = front.drop d.skipCount ++ [last] :=
    drop_skipCount_of_last hstages hstart rfl rfl
  have hrun : e.run = runStages p d.options (front.drop d.skipCount ++ [last]) u := by
    rw [← hleft]
    rfl
  have hrun' : e'.run = runStages p d'.options (front.drop d.skipCount ++ [last]) u := by
    rw [← hleft]
    rfl
  have hwrite : e'.write? = none := by
    apply Emission.write?_of_mem
    show last.name ∈ (stages.drop d.skipCount).map Stage.name
    simp [hleft]
  refine ⟨e', answer_of_emit hd' (exists_emit_eq_ok rfl rfl hsink), ?_, fun hnames => ?_⟩
  · rw [Emission.writes, hwrite]
  · show e'.run.steps.map StageStep.name = e.run.steps.map StageStep.name
    rw [hrun, hrun']
    congr 1
    apply steps_runStages_concat
    · rfl
    · intro t ht
      have hnamed : t.name ≠ o.stopAfter := by
        rw [hstop]
        exact hnames t (hleft ▸ List.mem_append_left _ ht)
      have hother : t.name ≠ last.name := by
        intro hsame
        exact name_not_mem_front hstages hdistinct
          (hsame ▸ List.mem_map_of_mem (List.mem_of_mem_drop ht))
      exact iff_of_false hother hnamed

end Last

/-- A driver that is to start after the last stage refuses to stop there, and without that stop it
has no stages to run. -/
theorem answer_of_start_last {stages front : List Stage} {last : Stage}
    (hstages : stages = front ++ [last]) (hset : o.startAfter ≠ "")
    (hstart : o.startAfter = last.name) (hd : (fresh (some p) stages).configure o = .ok d)
    (u : CodeUnit) (sink : Sink) :
    (fresh (some p) stages).answer { o with stopAfter := last.name } u sink =
        .refused (.wrongState .idle) ∧
      (Emission.ofDriver d p u sink).executed = [] := by
  constructor
  · cases hconfigure : (fresh (some p) stages).configure { o with stopAfter := last.name } with
    | error cause => exact answer_of_refused rfl hconfigure
    | ok d' =>
      obtain ⟨options, haccepted, -⟩ := configure_eq_ok_iff.mp hconfigure
      exact absurd hstart (haccepted.startAfter_ne hset)
  · obtain ⟨options, haccepted, rfl⟩ := configure_eq_ok_iff.mp hd
    obtain ⟨hdistinct, -⟩ := firstRepeated?_eq_none haccepted.distinct
    obtain ⟨kind, -, rfl⟩ := haccepted.kind
    -- all stages are skipped
    simp only [Emission.executed, Emission.ofDriver]
    rw [skipCount_of_parts hstages rfl hdistinct hstart (hstart ▸ hset)]
    simp [fresh, hstages, runStages]

/-- The window of a request that gives no stage to stop after: all stages that are not skipped. -/
theorem Accepted.isWindow_drop (h : d.Accepted o options) (hstop : o.stopAfter = "") :
    ∃ before, IsWindow o d.stages before (d.stages.drop { d with options }.skipCount) [] := by
  obtain ⟨before, window, behind, hwindow, hskip⟩ := h.exists_window
  have hbehind : behind = [] := by
    have hend := hwindow.stop
    rwa [StopsAt, if_pos hstop] at hend
  subst hbehind
  have hleft : d.stages.drop { d with options }.skipCount = window := by
    rw [← hskip, hwindow.parts, List.append_nil, List.drop_left]
  exact ⟨before, hleft ▸ hwindow⟩

/-- What comes of a request that gives no stage to stop after, for any stages that a driver takes.
The emission is carried out. If it does not fail, then the sink was written to once and took the
whole rendering of the unit after the last stage, just if none of the stages that are not skipped
has the empty name. The same request with the last stage to stop after writes nothing, and it runs
the same stages if none of them has the empty name. -/
theorem unstopped_run_delivers_iff {profile? : Option Profile} {stages : List Stage}
    (hd : (fresh profile? stages).configure o = .ok d) (hstop : o.stopAfter = "")
    (hkind : o.fileKind ≠ .null) (u : CodeUnit) :
    ∃ p e d' before window, profile? = some p ∧ d.emit (some u) .accepting = .ok (e, d') ∧
      IsWindow o stages before window [] ∧
      (e.failure? = none →
        (e.Delivers p d.options.fileKind (unitAfter p window u) ↔ ∀ s ∈ window, s.name ≠ "")) ∧
      ∀ last ∈ stages.getLast?,
        ((fresh profile? stages).answer { o with stopAfter := last.name } u .accepting).writes = 0 ∧
        ((∀ s ∈ window, s.name ≠ "") →
          ((fresh profile? stages).answer { o with stopAfter := last.name } u .accepting).executed =
            e.executed) := by
  obtain ⟨options, haccepted, hd'⟩ := configure_eq_ok_iff.mp hd
  obtain ⟨p, rfl⟩ : ∃ p, profile? = some p := Option.isSome_iff_exists.mp haccepted.profile
  obtain ⟨before, hwindow⟩ := haccepted.isWindow_drop hstop
  obtain ⟨kind, hkind', rfl⟩ := haccepted.kind
  subst hd'
  let d : Driver := { fresh (some p) stages with
    options := { o with fileKind := kind }, state := .configured }
  let window := stages.drop d.skipCount
  obtain ⟨d', hemit⟩ : ∃ d', d.emit (some u) .accepting =
      .ok (Emission.ofDriver d p u .accepting, d') := exists_emit_eq_ok rfl rfl nofun
  refine ⟨p, _, d', before, window, rfl, hemit, hwindow, fun hnone => ?_, fun last hlast => ?_⟩
  · have hnames : o.stopAfter ∉ window.map Stage.name ↔ ∀ s ∈ window, s.name ≠ "" := by
      rw [hstop, List.mem_map, not_exists]
      simp only [not_and, ne_eq]
    exact (Emission.delivers_iff (d := d) hnone hkind' hkind).trans hnames
  · obtain ⟨front, hstages⟩ := List.getLast?_eq_some_iff.mp hlast
    by_cases hstart : o.startAfter = "" ∨ o.startAfter ≠ last.name
    · obtain ⟨e, hanswer, hwrites, hexecuted⟩ :=
        answer_stopped_last hstages hstart hd hstop u .accepting nofun
      rw [hanswer]
      exact ⟨hwrites, hexecuted⟩
    · -- the request starts after the last stage, so there is no stage that it could stop after
      obtain ⟨hset, hlast⟩ := not_or.mp hstart
      obtain ⟨hanswer, hexecuted⟩ :=
        answer_of_start_last hstages hset (Decidable.not_not.mp hlast) hd u .accepting
      rw [hanswer]
      exact ⟨rfl, fun _ => hexecuted.symm⟩

end Driver

/-- The stages after legalization have names, so the object of a unit is delivered after them; and
it is not if the last of them is to be stopped after. -/
theorem late_object_delivered :
    ∃ e d' before window,
      (Driver.fresh (some Profile.host) Stage.standard).configure afterLegalization =
        .ok lateDriver ∧
      lateDriver.emit (some looping) .accepting = .ok (e, d') ∧ e.failure? = none ∧
      IsWindow afterLegalization Stage.standard before window [] ∧
      e.Delivers Profile.host .obj (unitAfter Profile.host window looping) ∧
      e.executed = ["mangle", "layout", "unwind"] ∧
      ((Driver.fresh (some Profile.host) Stage.standard).answer
        { afterLegalization with stopAfter := "unwind" } looping .accepting).writes = 0 ∧
      ((Driver.fresh (some Profile.host) Stage.standard).answer
        { afterLegalization with stopAfter := "unwind" } looping .accepting).executed =
          e.executed := by
  have hd : (Driver.fresh (some Profile.host) Stage.standard).configure afterLegalization =
      .ok lateDriver := rfl
  obtain ⟨p, e, d', before, window, ⟨rfl⟩, hemit, hwindow, hdelivers, hstopped⟩ :=
    Driver.unstopped_run_delivers_iff hd rfl nofun looping
  obtain ⟨hwrites, hexecuted⟩ := hstopped UnwindStage.stage rfl
  have hnames : ∀ s ∈ window, s.name ≠ "" := by
    have hstandard : ∀ s ∈ Stage.standard, s.name ≠ "" := by decide
    intro s hs
    apply hstandard
    rw [hwindow.parts]
    simp [hs]
  obtain ⟨u, p, ⟨rfl⟩, ⟨rfl⟩, -, -, he, -⟩ := Driver.emit_eq_ok hemit
  obtain ⟨hnone, hran⟩ : e.failure? = none ∧ e.executed = ["mangle", "layout", "unwind"] := by
    rw [he]
    decide +kernel
  exact ⟨e, d', before, window, hd, hemit, hnone, hwindow, (hdelivers hnone).mpr hnames, hran,
    hwrites, hexecuted hnames⟩

/-- A stage that changes nothing and has the empty name. -/
def nameless : Stage :=
  { name := "", run := fun _ u => { unit := u } }

/-- A unit with nothing in it. -/
def bare : CodeUnit :=
  { name := "plain" }

/-- A stage with the empty name passes for the one to stop after, though none is given. The emission
does not fail and the unit has a listing, yet nothing is written. -/
theorem nameless_stage_withholds :
    ∃ d e d', (Driver.fresh (some Profile.host) [nameless]).configure { fileKind := .asm } = .ok d ∧
      d.emit (some bare) .accepting = .ok (e, d') ∧ e.executed = [""] ∧ e.failure? = none ∧
      (assemblyText Profile.host (unitAfter Profile.host [nameless] bare)).toOption =
        some ("# mcemit unit plain (x86_64/elf/generic/default)\n" ++
          "\t.section\t.note.GNU-stack,\"\",@progbits\n") ∧
      e.writes = 0 :=
  ⟨_, _, _, rfl, rfl, by decide +kernel, by decide +kernel, by decide +kernel, by decide +kernel⟩

end CodeEmission
