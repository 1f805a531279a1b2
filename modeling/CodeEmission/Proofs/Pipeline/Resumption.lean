import CodeEmission.Proofs.Pipeline.Window

/-!
# Runs in Two Parts

A driver can start after a stage, on a unit that went through the stages before. This module
compares such a run with the run of all stages on the unit that the other one came from.

Stages hand over a unit and nothing else. So a run of stages is the run of the first of them, and
then the run of the others on what is left (`runStages_append`), and of a request it only matters
whether to check and where to stop (`runStages_congr`).

* `Driver.configure_eq_ok_iff`: which requests a driver accepts.
* `Driver.exists_configure_iff_stopsBehind`: when a request is accepted from a stage on.
* `Driver.emit_resumes`: two requests that differ in where to start, for any stages that have names.
* `Driver.run_splits_at_stage`: the standard stages.
-/

namespace CodeEmission

variable {d : Driver} {o o' options : Options} {p : Profile} {u : CodeUnit}

/-! ## One run after another -/

/-- A run that is finished goes on with another one; a run that ended before stays as it is. -/
def StageRun.andThen (r : StageRun) (next : CodeUnit → StageRun) : StageRun :=
  match r.ending with
  | .finished => { next r.unit with steps := r.steps ++ (next r.unit).steps }
  | .stopped | .failed _ => r

theorem StageRun.andThen_of_finished {r : StageRun} (h : r.ending = .finished)
    (next : CodeUnit → StageRun) :
    r.andThen next = { next r.unit with steps := r.steps ++ (next r.unit).steps } := by
  simp only [andThen, h]

/-- Stages in two parts: the second part runs on the result of the first, if that is finished. -/
theorem runStages_append (p : Profile) (o : Options) (first second : List Stage) (u : CodeUnit) :
    runStages p o (first ++ second) u = (runStages p o first u).andThen (runStages p o second) := by
  induction first generalizing u with
  | nil => rfl
  | cons s rest ih =>
    rw [List.cons_append, runStages, runStages]
    dsimp only
    split
    · rfl
    · split
      · rfl
      · -- the first stage passed, and its step goes in front of both sides
        rw [ih]
        obtain ⟨steps, unit, ending⟩ := runStages p o rest (s.run p u).unit
        cases ending <;> rfl

/-- Two requests have stages run alike if both or neither ask for checks and they stop at the same
of these stages. -/
theorem runStages_congr {stages : List Stage} (hverify : o.verify = o'.verify)
    (hstop : ∀ s ∈ stages, s.name = o.stopAfter ↔ s.name = o'.stopAfter) (u : CodeUnit) :
    runStages p o stages u = runStages p o' stages u := by
  induction stages generalizing u with
  | nil => rfl
  | cons s rest ih =>
    obtain ⟨hfirst, hrest⟩ := List.forall_mem_cons.mp hstop
    rw [runStages, runStages]
    simp only [hverify, hfirst, ih hrest]

/-! ## Requests that are accepted -/

namespace Driver

/-- A driver accepts the requests that it finds nothing wrong with. -/
theorem accept_eq_ok_iff : d.accept o = .ok options ↔ d.Accepted o options := by
  refine ⟨accepted_of_accept, fun h => ?_⟩
  obtain ⟨kind, hkind, rfl⟩ := h.kind
  obtain ⟨start, stop, hstart, hstop, horder⟩ := h.places
  have hprofile : d.profile?.isNone = false := by simpa using h.profile
  simp only [accept, h.idle, hprofile, hkind, h.distinct, hstart, hstop, bind, Except.bind, pure,
    Except.pure]
  -- what is left is the order of the two places, if there are two
  cases start with
  | none => rfl
  | some i =>
    cases stop with
    | none => rfl
    | some j => simp [Nat.not_le.mpr (horder i j rfl rfl)]

theorem configure_eq_ok_iff {d' : Driver} :
    d.configure o = .ok d' ↔
      ∃ options, d.Accepted o options ∧ d' = { d with options, state := .configured } := by
  constructor
  · intro h
    obtain ⟨options, haccept, hd'⟩ := configure_eq_ok h
    exact ⟨options, accepted_of_accept haccept, hd'⟩
  · rintro ⟨options, haccepted, rfl⟩
    rw [configure, accept_eq_ok_iff.mpr haccepted]
    rfl

/-- A stage that has its name alone is found behind the stages before it. -/
theorem findIdx?_of_parts {front back : List Stage} {s : Stage}
    (hstages : d.stages = front ++ s :: back) (hfresh : s.name ∉ front.map Stage.name) :
    d.stageNames.findIdx? (· = s.name) = some front.length := by
  have hnone : (front.map Stage.name).findIdx? (· = s.name) = none := by
    rw [List.findIdx?_eq_none_iff]
    intro name hmem
    simpa using fun hsame : name = s.name => hfresh (hsame ▸ hmem)
  rw [stageNames, hstages, List.map_append, List.findIdx?_append, hnone]
  simp [List.findIdx?_cons]

theorem place?_of_parts {front back : List Stage} {s : Stage}
    (hstages : d.stages = front ++ s :: back) (hfresh : s.name ∉ front.map Stage.name)
    (hname : s.name ≠ "") (unknown : String → ConfigureError) :
    d.place? s.name unknown = .ok (some front.length) := by
  rw [place?, if_neg hname, findIdx?_of_parts hstages hfresh]

/-- A place is that of a name, and the name is found there. -/
theorem place?_eq_some {name : String} {unknown : String → ConfigureError} {i : Nat}
    (h : d.place? name unknown = .ok (some i)) :
    name ≠ "" ∧ d.stageNames.findIdx? (· = name) = some i := by
  have hname : name ≠ "" := by
    intro hunset
    simp [place?, hunset] at h
  obtain ⟨_, ⟨rfl⟩, hfound, -⟩ := place?_eq_ok h hname
  exact ⟨hname, hfound⟩

end Driver

/-! ## Two runs that end alike -/

/-- A finished run went through all its stages. -/
theorem runStages_of_finished {stages : List Stage}
    (h : (runStages p o stages u).ending = .finished) :
    runStages p o stages u =
      { steps := stepsOn p o.verify stages u
        unit := unitAfter p stages u
        ending := .finished } := by
  induction stages generalizing u with
  | nil => rfl
  | cons s rest ih =>
    rw [runStages] at h ⊢
    dsimp only at h ⊢
    split at h
    · cases h
    next hpassed =>
      split at h
      · cases h
      next hstop => rw [if_neg hstop, ih h, stepsOn, unitAfter, Stage.stepOn, hpassed]

/-- Emissions of one kind write the same and fail alike, if their runs of stages leave the same unit
and end alike. -/
theorem Emission.write?_eq {d₁ d₂ : Driver} {u₁ u₂ : CodeUnit} {sink : Sink}
    (hkind : d₁.options.fileKind = d₂.options.fileKind)
    (hunit : (ofDriver d₁ p u₁ sink).run.unit = (ofDriver d₂ p u₂ sink).run.unit)
    (hending : (ofDriver d₁ p u₁ sink).run.ending = (ofDriver d₂ p u₂ sink).run.ending) :
    (ofDriver d₁ p u₁ sink).write? = (ofDriver d₂ p u₂ sink).write? ∧
      (ofDriver d₁ p u₁ sink).failure? = (ofDriver d₂ p u₂ sink).failure? := by
  -- what is written depends on the unit that is left, and on nothing if the run was cut short
  have hwrite : (ofDriver d₁ p u₁ sink).write? = (ofDriver d₂ p u₂ sink).write? := by
    by_cases hfinished : (ofDriver d₁ p u₁ sink).run.ending = .finished
    · rw [write?_of_finished hfinished, write?_of_finished (hending ▸ hfinished), hkind, hunit]
    · rw [write?_of_not_finished hfinished, write?_of_not_finished (hending ▸ hfinished)]
  refine ⟨hwrite, ?_⟩
  unfold failure?
  rw [hending, hwrite]

/-! ## Where to start -/

/-- The request stops after none of the stages before the split, nor after the stage at which it
lies. -/
def StopsBehind (back : List Stage) (o : Options) : Prop :=
  o.stopAfter = "" ∨ o.stopAfter ∈ back.map Stage.name

section Split

variable {stages front back : List Stage} {s : Stage}
  (hstages : stages = front ++ s :: back) (hnames : ∀ s ∈ stages, s.name ≠ "")

include hstages

/-- The stage at which a list of stages is split has another name than the stages before it. -/
theorem name_not_mem_front (hdistinct : (stages.map Stage.name).Nodup) :
    s.name ∉ front.map Stage.name := by
  intro hmem
  rw [hstages, List.map_append, List.map_cons] at hdistinct
  exact (List.nodup_append.mp hdistinct).2.2 _ hmem _ List.mem_cons_self rfl

/-- A driver that starts at the split skips the stages up to there. -/
theorem Driver.skipCount_of_parts (hd : d.stages = stages)
    (hdistinct : (stages.map Stage.name).Nodup) (hstart : d.options.startAfter = s.name)
    (hname : s.name ≠ "") : d.skipCount = front.length + 1 := by
  rw [skipCount, hstart, if_neg hname,
    findIdx?_of_parts (hd.trans hstages) (name_not_mem_front hstages hdistinct)]

include hnames

/-- No stage up to the split is the one to stop after. -/
theorem StopsBehind.name_ne (hstop : StopsBehind back o)
    (hdistinct : (stages.map Stage.name).Nodup) {t : Stage} (ht : t ∈ front ++ [s]) :
    t.name ≠ o.stopAfter := by
  have hparts : stages = front ++ [s] ++ back := hstages.trans (List.append_cons ..)
  rcases hstop with hunset | hset
  · rw [hunset]
    exact hnames t (hparts ▸ List.mem_append_left back ht)
  · rw [hparts, List.map_append] at hdistinct
    exact (List.nodup_append.mp hdistinct).2.2 _ (List.mem_map_of_mem ht) _ hset

/-- The run of all stages, for a request that stops behind the split: what comes behind goes on with
what the stages up to the split left. -/
theorem runStages_of_parts (hstop : StopsBehind back o) (hdistinct : (stages.map Stage.name).Nodup)
    {first : StageRun} (hfirst : runStages p { verify := o.verify } (front ++ [s]) u = first)
    (hfinished : first.ending = .finished) :
    runStages p o stages u =
      { runStages p o back first.unit with
        steps := first.steps ++ (runStages p o back first.unit).steps } := by
  -- up to the split the request does not stop, no more than one that never does
  have hsame : runStages p o (front ++ [s]) u = first := by
    rw [← hfirst]
    apply runStages_congr
    · rfl
    · intro t ht
      have hmem : t ∈ stages := by
        rw [hstages, List.append_cons]
        exact List.mem_append_left _ ht
      exact iff_of_false (hstop.name_ne hstages hnames hdistinct ht) (hnames t hmem)
  rw [hstages, List.append_cons, runStages_append, hsame, StageRun.andThen_of_finished hfinished]

namespace Driver

variable {d₁ d₂ : Driver}

/-- A request that is accepted to start at the split stops behind it. -/
theorem Accepted.stopsBehind
    (h : (fresh (some p) stages).Accepted { o with startAfter := s.name } options) :
    StopsBehind back o := by
  obtain ⟨hdistinct, -⟩ := firstRepeated?_eq_none h.distinct
  obtain ⟨before, window, behind, hwindow, hskip⟩ := h.exists_window
  obtain ⟨kind, -, rfl⟩ := h.kind
  have hname : s.name ≠ "" := hnames s (by simp [hstages])
  rw [skipCount_of_parts hstages rfl hdistinct rfl hname] at hskip
  -- the stages that are skipped are the first part, so the window and what stands behind it are the
  -- other part
  have hparts : front ++ [s] ++ back = before ++ (window ++ behind) :=
    calc front ++ [s] ++ back = stages := (hstages.trans (List.append_cons ..)).symm
      _ = before ++ window ++ behind := hwindow.parts
      _ = before ++ (window ++ behind) := List.append_assoc ..
  obtain ⟨-, rfl⟩ := List.append_inj hparts (by simp [hskip])
  have hstop : StopsAt o.stopAfter window behind := hwindow.stop
  by_cases hunset : o.stopAfter = ""
  · exact .inl hunset
  · rw [StopsAt, if_neg hunset] at hstop
    obtain ⟨last, hlast, hname⟩ := Option.map_eq_some_iff.mp hstop
    exact .inr (hname ▸ List.mem_map_of_mem
      (List.mem_append_left _ (List.mem_of_getLast? hlast)))

/-- A request for all stages is as good from the split on, if it stops behind it. -/
theorem Accepted.atSplit (h : (fresh (some p) stages).Accepted { o with startAfter := "" } options)
    (hstop : StopsBehind back o) :
    (fresh (some p) stages).Accepted { o with startAfter := s.name }
      { options with startAfter := s.name } where
  idle := rfl
  profile := rfl
  kind := by
    obtain ⟨kind, hkind, rfl⟩ := h.kind
    exact ⟨kind, hkind, rfl⟩
  distinct := h.distinct
  places := by
    obtain ⟨hdistinct, -⟩ := firstRepeated?_eq_none h.distinct
    obtain ⟨-, stop, -, hplace, -⟩ := h.places
    have hname : s.name ≠ "" := hnames s (by simp [hstages])
    refine ⟨some front.length, stop,
      place?_of_parts hstages (name_not_mem_front hstages hdistinct) hname _, hplace, ?_⟩
    -- a stop before that would be one of the stages up to the split
    rintro i j ⟨rfl⟩ rfl
    by_contra hle
    obtain ⟨hset, -⟩ := place?_eq_some hplace
    obtain ⟨_, ⟨rfl⟩, -, hends⟩ := place?_eq_ok hplace hset
    obtain ⟨last, hlast, hsame⟩ := Option.map_eq_some_iff.mp hends
    have htake : stages.take (j + 1) = (front ++ [s]).take (j + 1) := by
      rw [hstages, List.append_cons]
      exact List.take_append_of_le_length (by simp; omega)
    refine hstop.name_ne hstages hnames hdistinct ?_ hsame
    exact List.mem_of_mem_take (htake ▸ List.mem_of_getLast? hlast)

/-- A request that is accepted for all stages is accepted from the split on just if it stops behind
it. -/
theorem exists_configure_iff_stopsBehind
    (hd : (fresh (some p) stages).configure { o with startAfter := "" } = .ok d₁) :
    (∃ d₂, (fresh (some p) stages).configure { o with startAfter := s.name } = .ok d₂) ↔
      StopsBehind back o := by
  obtain ⟨options, haccepted, -⟩ := configure_eq_ok_iff.mp hd
  constructor
  · rintro ⟨d₂, hd₂⟩
    obtain ⟨_, haccepted₂, -⟩ := configure_eq_ok_iff.mp hd₂
    exact haccepted₂.stopsBehind hstages hnames
  · intro hstop
    exact ⟨_, configure_eq_ok_iff.mpr ⟨_, haccepted.atSplit hstages hnames hstop, rfl⟩⟩

/-- Requests that differ in where to start: all stages on a unit, and the stages from the split on,
on what the stages up to there make of that unit. -/
theorem emit_resumes (hd₁ : (fresh (some p) stages).configure { o with startAfter := "" } = .ok d₁)
    (hd₂ : (fresh (some p) stages).configure { o with startAfter := s.name } = .ok d₂)
    {first : StageRun} (hfirst : runStages p { verify := o.verify } (front ++ [s]) u = first)
    (hfinished : first.ending = .finished) {sink : Sink}
    (hsink : sink = .absent → d₁.options.fileKind = .null) :
    ∃ e₁ d₁' e₂ d₂', d₁.emit (some u) sink = .ok (e₁, d₁') ∧
      d₂.emit (some first.unit) sink = .ok (e₂, d₂') ∧
      e₁.failure? = e₂.failure? ∧ e₁.writes = e₂.writes ∧ e₁.output? = e₂.output? ∧
      e₁.executed = (front ++ [s]).map Stage.name ++ e₂.executed := by
  obtain ⟨options₁, haccepted₁, rfl⟩ := configure_eq_ok_iff.mp hd₁
  obtain ⟨options₂, haccepted₂, rfl⟩ := configure_eq_ok_iff.mp hd₂
  obtain ⟨hdistinct, -⟩ := firstRepeated?_eq_none haccepted₁.distinct
  have hstop := haccepted₂.stopsBehind hstages hnames
  obtain ⟨kind, hkind, rfl⟩ := haccepted₁.kind
  obtain ⟨_, hkind₂, rfl⟩ := haccepted₂.kind
  obtain rfl : kind = _ := Except.ok.inj (hkind.symm.trans hkind₂)
  let d₁ : Driver := { fresh (some p) stages with
    options := { o with fileKind := kind, startAfter := "" }, state := .configured }
  let d₂ : Driver := { fresh (some p) stages with
    options := { o with fileKind := kind, startAfter := s.name }, state := .configured }
  obtain ⟨d₁', hemit₁⟩ := exists_emit_eq_ok (d := d₁) (u := u) rfl rfl hsink
  obtain ⟨d₂', hemit₂⟩ := exists_emit_eq_ok (d := d₂) (u := first.unit) rfl rfl hsink
  let e₁ := Emission.ofDriver d₁ p u sink
  let e₂ := Emission.ofDriver d₂ p first.unit sink
  -- where to start plays no part in how the stages run
  have hrun₂ : e₂.run = runStages p d₁.options back first.unit := by
    have hname : s.name ≠ "" := hnames s (by simp [hstages])
    show runStages p d₂.options (stages.drop d₂.skipCount) first.unit = _
    rw [skipCount_of_parts hstages rfl hdistinct rfl hname, hstages, List.append_cons,
      List.drop_left' (by simp)]
    apply runStages_congr
    · rfl
    · exact fun _ _ => Iff.rfl
  have hrun₁ : e₁.run = { e₂.run with steps := first.steps ++ e₂.run.steps } := by
    rw [hrun₂]
    exact runStages_of_parts (o := d₁.options) hstages hnames hstop hdistinct hfirst hfinished
  have hunit : e₁.run.unit = e₂.run.unit := by rw [hrun₁]
  have hending : e₁.run.ending = e₂.run.ending := by rw [hrun₁]
  obtain ⟨hwrite, hfailure⟩ : e₁.write? = e₂.write? ∧ e₁.failure? = e₂.failure? :=
    Emission.write?_eq rfl hunit hending
  refine ⟨e₁, d₁', e₂, d₂', hemit₁, hemit₂, hfailure, ?_, ?_, ?_⟩
  · rw [Emission.writes, Emission.writes, hwrite]
  · rw [Emission.output?, Emission.output?, hwrite]
  · have hsteps : first.steps = stepsOn p o.verify (front ++ [s]) u := by
      rw [← hfirst] at hfinished ⊢
      rw [runStages_of_finished hfinished]
    rw [Emission.executed, hrun₁, List.map_append, hsteps, map_name_stepsOn]
    rfl

end Driver

end Split

/-! ## The standard stages -/

/-- A run may be interrupted after any of the standard stages. Suppose that a request is accepted
for all stages, and that the stages up to one of them run on a unit to their end, with checks if the
request asks for them. The same request is accepted from that stage on unless it stops there or
before. Then a run from there on, of the unit that was left, fails with the same error or none,
writes as often and gives the same output as the run of all stages over the first unit, and it runs
the stages that this one runs after the split. -/
theorem Driver.run_splits_at_stage {front back : List Stage} {s : Stage} {d₁ : Driver}
    {first : StageRun} (hstages : Stage.standard = front ++ s :: back)
    (hd : (standard p).configure { o with startAfter := "" } = .ok d₁)
    (hfirst : runStages p { verify := o.verify } (front ++ [s]) u = first)
    (hfinished : first.ending = .finished) :
    ((∃ d₂, (standard p).configure { o with startAfter := s.name } = .ok d₂) ↔
        StopsBehind back o) ∧
      ∀ d₂, (standard p).configure { o with startAfter := s.name } = .ok d₂ →
        ∀ sink : Sink, (sink = .absent → d₁.options.fileKind = .null) →
          ∃ e₁ d₁' e₂ d₂', d₁.emit (some u) sink = .ok (e₁, d₁') ∧
            d₂.emit (some first.unit) sink = .ok (e₂, d₂') ∧
            e₁.failure? = e₂.failure? ∧ e₁.writes = e₂.writes ∧ e₁.output? = e₂.output? ∧
            e₁.executed = (front ++ [s]).map Stage.name ++ e₂.executed := by
  have hnames : ∀ s ∈ Stage.standard, s.name ≠ "" := by decide
  exact ⟨exists_configure_iff_stopsBehind hstages hnames hd,
    fun d₂ hd₂ sink hsink => emit_resumes hstages hnames hd hd₂ hfirst hfinished hsink⟩

/-- A unit with a loop and a datum that refers to the function around it. -/
def looping : CodeUnit :=
  { name := "looping"
    funcs := [{ name := "main", linkage := .global
                insts := [{ op := "nop", encoding := "90", label := "again" },
                  { op := "jmp", operands := [{ kind := .label, sym := "again" }],
                    encoding := "e9 00 00 00 00" },
                  { op := "ret", encoding := "c3" }] }]
    data := [{ name := "entry", linkage := .internal, values := [{ size := 8, sym := "main" }] }] }

/-- The checked run of the first two stages over it. -/
def untilMangled : StageRun :=
  runStages Profile.host { verify := true } [Legalize.stage, Mangle.stage] looping

/-- The object of a unit is the same if the work on it is interrupted after mangling. -/
theorem looping_resumed_after_mangling :
    untilMangled.ending = .finished ∧ untilMangled.unit ≠ looping ∧
      ∃ d₁ d₂ e₁ d₁' e₂ d₂',
        (Driver.standard Profile.host).configure { fileKind := .obj, verify := true } = .ok d₁ ∧
        (Driver.standard Profile.host).configure
          { fileKind := .obj, verify := true, startAfter := "mangle" } = .ok d₂ ∧
        d₁.emit (some looping) .accepting = .ok (e₁, d₁') ∧
        d₂.emit (some untilMangled.unit) .accepting = .ok (e₂, d₂') ∧
        e₁.failure? = e₂.failure? ∧ e₁.output? = e₂.output? ∧ e₁.output?.isSome = true ∧
        e₁.executed = ["legalize", "mangle", "layout", "unwind"] ∧
        e₂.executed = ["layout", "unwind"] := by
  have hfinished : untilMangled.ending = .finished := by decide +kernel
  have hstages : Stage.standard =
      [Legalize.stage] ++ Mangle.stage :: [Layout.stage, UnwindStage.stage] := rfl
  obtain ⟨haccepts, hresumes⟩ := Driver.run_splits_at_stage
    (o := { fileKind := .obj, verify := true }) hstages rfl rfl hfinished
  obtain ⟨d₂, hd₂⟩ := haccepts.mpr (.inl rfl)
  obtain ⟨e₁, d₁', e₂, d₂', hemit₁, hemit₂, hfailure, -, houtput, hexecuted⟩ :=
    hresumes d₂ hd₂ .accepting nofun
  obtain ⟨u, p, ⟨rfl⟩, ⟨rfl⟩, -, -, he, -⟩ := Driver.emit_eq_ok hemit₁
  have hsome : e₁.output?.isSome = true := by
    rw [he]
    decide +kernel
  have hall : e₁.executed = ["legalize", "mangle", "layout", "unwind"] := by
    rw [he]
    decide +kernel
  have hothers : ["legalize", "mangle"] ++ ["layout", "unwind"] =
      ["legalize", "mangle"] ++ e₂.executed := hall.symm.trans hexecuted
  exact ⟨hfinished, by decide +kernel, _, d₂, e₁, d₁', e₂, d₂', rfl, hd₂, hemit₁, hemit₂, hfailure,
    houtput, hsome, hall, (List.append_cancel_left hothers).symm⟩

end CodeEmission
