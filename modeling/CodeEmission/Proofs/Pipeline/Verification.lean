import CodeEmission.Proofs.Pipeline.Lifecycle
import CodeEmission.Proofs.Pipeline.Standard
import CodeEmission.Proofs.Stage.Preservation

/-!
# Where Checks Can Fail

With checks on, a unit is looked at after every stage. This module says where that can go wrong for a
unit that passes to begin with.

* `exists_stage_of_failed`: a run that failed did so in one of its stages, on a unit for which still
  held what the stages before it keep.
* `Stage.isMangling_of_failure?`: of the standard stages only mangling can leave a unit that does not
  pass, and only for clashes of symbols.
* `standard_stages_keep_units_sound`: what each of the stages leaves behind, and what follows for the
  emissions of a driver.
-/

namespace CodeEmission

variable {p : Profile} {o : Options} {u : CodeUnit}

/-- The checks refuse a unit because entities share a symbol, and for nothing else. -/
def VerifyError.IsRedefinition (u : CodeUnit) : VerifyError → Prop
  | .noUnit => False
  | .problems ps => ps ≠ [] ∧ ∀ q ∈ ps, q.IsRedefinition u.entities

/-- A unit passes the checks, and its entities have names of their own. -/
structure CodeUnit.IsAccepted (u : CodeUnit) : Prop where
  verify : verify (some u) = .ok ()
  names : ∀ e ∈ u.entities, e.name ≠ ""

/-- In source form an entity has no symbol yet and is known by its name. -/
theorem CodeUnit.isAccepted_of_isSource (hsource : u.IsSource)
    (hverify : CodeEmission.verify (some u) = .ok ()) : u.IsAccepted := by
  refine ⟨hverify, fun e he => ?_⟩
  have hname := emittedName_ne_empty_of_verify hverify he
  rcases List.mem_append.mp he with hmem | hmem
  · obtain ⟨f, hf, rfl⟩ := List.mem_map.mp hmem
    simpa [Entity.emittedName, Func.emittedName, Entity.name, (hsource.1 f hf).2.1] using hname
  · obtain ⟨d, hd, rfl⟩ := List.mem_map.mp hmem
    simpa [Entity.emittedName, DataObject.emittedName, Entity.name, (hsource.2 d hd).2] using hname

namespace CodeUnit.IsAccepted

variable (h : u.IsAccepted)

include h

theorem wellFormed : ∀ e ∈ u.entities, e.WellFormed :=
  fun _ he => wellFormed_of_verify h.verify he

/-- Of an accepted unit, only symbols clash after mangling. -/
theorem isRedefinition_of_mangled {cause : VerifyError}
    (herror : CodeEmission.verify (some (Mangle.mangled p u)) = .error cause) :
    cause.IsRedefinition (Mangle.mangled p u) := by
  simp only [CodeEmission.verify, List.isEmpty_iff] at herror
  split at herror
  · cases herror
  next hsome =>
    rw [← Except.error.inj herror]
    refine ⟨hsome, fun q hq => ?_⟩
    have hunit := (verify_eq_ok_iff.mp h.verify).1
    exact Mangle.isRedefinition_of_mem_problems hunit (fun e he => ⟨h.names e he, h.wellFormed e he⟩) hq

/-- No standard stage takes the name of an entity away. -/
theorem name_ne_empty_of_standard {s : Stage} (hs : s ∈ Stage.standard) {e : Entity}
    (he : e ∈ (s.run p u).unit.entities) : e.name ≠ "" := by
  -- every stage changes entities one by one
  have hmap : ∀ change : Entity → Entity, (∀ e, e.name ≠ "" → (change e).name ≠ "") →
      (s.run p u).unit.entities = u.entities.map change → e.name ≠ "" := by
    intro change hkeep hentities
    rw [hentities] at he
    obtain ⟨source, hsource, rfl⟩ := List.mem_map.mp he
    exact hkeep source (h.names source hsource)
  simp only [Stage.standard, List.mem_cons, List.not_mem_nil, or_false] at hs
  rcases hs with rfl | rfl | rfl | rfl
  · exact hmap (Legalize.entity p) (fun e hne => by simpa using hne) Legalize.entities_run
  · refine hmap (Mangle.entity p (Mangle.definitions p u)) (fun e hne => ?_) Mangle.entities_mangled
    cases e <;> exact Text.composed_ne_empty hne
  · refine hmap (Layout.entity p) (fun e hne => ?_) Layout.entities_run
    cases e <;> exact hne
  · refine hmap (UnwindStage.entity p) (fun e hne => ?_) UnwindStage.entities_run
    cases e <;> exact hne

end CodeUnit.IsAccepted

/-! ## One stage -/

/-- A verification failure of a stage is an answer of the checks or of the stage's own check. -/
theorem Stage.failure?_eq_some {s : Stage} {out : StageOutcome} {failure : StageFailure}
    (h : s.failure? p o.verify out = some failure) (hverification : failure.isVerification = true) :
    out.faults = [] ∧ failure.stage = s.name ∧
      ((∃ cause, verify (some out.unit) = .error cause ∧ failure.cause = .invalid cause) ∨
        verify (some out.unit) = .ok () ∧
          ∃ check fault, s.check = some check ∧ check p out.unit = some fault) := by
  unfold Stage.failure? at h
  split at h
  · -- the stage itself failed, which is no verification failure
    rw [← Option.some.inj h] at hverification
    cases hverification
  next hfaults =>
    refine ⟨Decidable.not_not.mp hfaults, ?_⟩
    split at h
    · cases hverify : verify (some out.unit) with
      | error cause =>
        rw [hverify] at h
        rw [← Option.some.inj h]
        exact ⟨rfl, .inl ⟨cause, rfl, rfl⟩⟩
      | ok passed =>
        simp only [hverify, Option.map_eq_some_iff, Option.bind_eq_some_iff] at h
        obtain ⟨fault, ⟨check, hcheck, hfault⟩, rfl⟩ := h
        exact ⟨rfl, .inr ⟨rfl, check, fault, hcheck, hfault⟩⟩
    · cases h

/-- Of the standard stages, only mangling can leave an accepted unit with problems, and these are
clashes of symbols. -/
theorem Stage.isMangling_of_failure? (hp : p.IsUsual) (hu : u.IsAccepted) {s : Stage}
    (hs : s ∈ Stage.standard) {failure : StageFailure}
    (h : s.failure? p o.verify (s.run p u) = some failure)
    (hverification : failure.isVerification = true) :
    failure.stage = "mangle" ∧
      ∃ cause, failure.cause = .invalid cause ∧ cause.IsRedefinition (s.run p u).unit := by
  obtain ⟨hfaults, hstage, hcause⟩ := failure?_eq_some h hverification
  -- a stage whose unit passes, with a check that passes, has no such failure
  have hnone : verify (some (s.run p u).unit) = .ok () →
      (∀ check, s.check = some check → check p (s.run p u).unit = none) → False := by
    rintro hok hcheck
    rcases hcause with ⟨cause, herror, -⟩ | ⟨-, check, fault, hsome, hfault⟩
    · rw [hok] at herror
      cases herror
    · rw [hcheck check hsome] at hfault
      cases hfault
  simp only [standard, List.mem_cons, List.not_mem_nil, or_false] at hs
  rcases hs with rfl | rfl | rfl | rfl
  · refine (hnone ((Legalize.verify_run hu.wellFormed).trans hu.verify) ?_).elim
    rintro _ ⟨rfl⟩
    exact Legalize.check_run hfaults
  · -- mangling has no check of its own, so what is left is an answer of the checks
    refine ⟨hstage, ?_⟩
    rcases hcause with ⟨cause, herror, hinvalid⟩ | ⟨-, check, fault, hsome, -⟩
    · exact ⟨cause, hinvalid, hu.isRedefinition_of_mangled herror⟩
    · cases hsome
  · refine (hnone ((Layout.verify_run hu.wellFormed).trans hu.verify) ?_).elim
    rintro _ ⟨rfl⟩
    exact Layout.check_run hp
  · refine (hnone ((UnwindStage.verify_run hu.wellFormed).trans hu.verify) ?_).elim
    intro check hcheck
    cases hcheck

/-! ## Runs of stages -/

/-- A failed run failed in one of its stages. What every stage without a failure keeps still held of
the unit that this stage was given, and what it made of the unit is what the run leaves. -/
theorem exists_stage_of_failed {P : CodeUnit → Prop} {stages : List Stage}
    (hstep : ∀ s ∈ stages, ∀ v, P v → s.failure? p o.verify (s.run p v) = none → P (s.run p v).unit)
    (hu : P u) {failure : StageFailure} (h : (runStages p o stages u).ending = .failed failure) :
    ∃ s ∈ stages, ∃ v, P v ∧ s.failure? p o.verify (s.run p v) = some failure ∧
      (runStages p o stages u).unit = (s.run p v).unit := by
  induction stages generalizing u with
  | nil => cases h
  | cons s rest ih =>
    rw [runStages] at h ⊢
    dsimp only at h ⊢
    cases hfailure : s.failure? p o.verify (s.run p u) with
    | some found =>
      rw [hfailure] at h
      obtain rfl := Ending.failed.inj h
      exact ⟨s, List.mem_cons_self, u, hu, hfailure, rfl⟩
    | none =>
      simp only [hfailure] at h ⊢
      -- a run that was stopped here has not failed, so the rest was run
      split at h
      · cases h
      next hstop =>
        have hnext := hstep s List.mem_cons_self u hu hfailure
        obtain ⟨t, ht, v, hv, hfailed, hunit⟩ :=
          ih (fun t ht => hstep t (List.mem_cons_of_mem _ ht)) hnext h
        rw [if_neg hstop]
        exact ⟨t, List.mem_cons_of_mem _ ht, v, hv, hfailed, hunit⟩

/-- A checked run of standard stages, any of them, fails verification in mangling only. -/
theorem isMangling_of_failed (hp : p.IsUsual) (hverify : o.verify = true) {stages : List Stage}
    (hstages : ∀ s ∈ stages, s ∈ Stage.standard) (hu : u.IsAccepted) {failure : StageFailure}
    (h : (runStages p o stages u).ending = .failed failure)
    (hverification : failure.isVerification = true) :
    failure.stage = "mangle" ∧ ∃ cause, failure.cause = .invalid cause ∧
      cause.IsRedefinition (runStages p o stages u).unit := by
  -- a stage without a failure was checked, so being accepted is kept along the run
  have hstep : ∀ s ∈ stages, ∀ v : CodeUnit, v.IsAccepted →
      s.failure? p o.verify (s.run p v) = none → (s.run p v).unit.IsAccepted :=
    fun s hs v hv hnone => ⟨(Stage.failure?_eq_none hnone).2 hverify,
      fun e he => hv.name_ne_empty_of_standard (hstages s hs) he⟩
  obtain ⟨s, hs, v, hv, hfailed, hunit⟩ := exists_stage_of_failed hstep hu h
  rw [hunit]
  exact Stage.isMangling_of_failure? hp hv (hstages s hs) hfailed hverification

/-- What the standard stages make of a unit in source form that passes the checks. After
legalization, layout and the unwind records the checks answer as they did before the stage, and a
stage's own check passes. After mangling they can only find that two entities have one symbol. So the
only verification failure of a driver's emission is a redefinition, found after mangling; this holds
wherever the options let the run start and stop. -/
theorem standard_stages_keep_units_sound {b : Bucket} {c : Conventions}
    (hp : Profile.ofBucket b c = .ok p) (hsource : u.IsSource) (hverify : verify (some u) = .ok ()) :
    let legalized := Legalize.run p u
    let mangled := Mangle.run p legalized.unit
    let laid := Layout.run p mangled.unit
    let unwound := UnwindStage.run p laid.unit
    (verify (some legalized.unit) = .ok () ∧
        (legalized.faults = [] → Legalize.check p legalized.unit = none)) ∧
      (∀ cause, verify (some mangled.unit) = .error cause → cause.IsRedefinition mangled.unit) ∧
      (verify (some laid.unit) = verify (some mangled.unit) ∧ Layout.check p laid.unit = none) ∧
      verify (some unwound.unit) = verify (some mangled.unit) ∧
      ∀ (o : Options) (d d' : Driver) (sink : Sink) (e : Emission) (failure : StageFailure),
        (Driver.standard p).configure o = .ok d → o.verify = true →
        d.emit (some u) sink = .ok (e, d') → e.failure? = some (.stage failure) →
        failure.isVerification = true →
        failure.stage = "mangle" ∧ ∃ cause, failure.cause = .invalid cause ∧
          cause.IsRedefinition e.run.unit := by
  have husual := Profile.isUsual_of_ofBucket hp
  have hu := CodeUnit.isAccepted_of_isSource hsource hverify
  intro legalized mangled laid unwound
  have hlegalized : legalized.unit.IsAccepted :=
    ⟨(Legalize.verify_run hu.wellFormed).trans hverify,
      fun e he => hu.name_ne_empty_of_standard (s := Legalize.stage) (by simp [Stage.standard]) he⟩
  have hmangled : ∀ e ∈ mangled.unit.entities, e.WellFormed :=
    fun e he => Mangle.wellFormed_mangled hlegalized.wellFormed he
  have hlaid : ∀ e ∈ laid.unit.entities, e.WellFormed := by
    intro e he
    rw [Layout.entities_run] at he
    obtain ⟨source, hsource, rfl⟩ := List.mem_map.mp he
    exact Layout.wellFormed_entity (hmangled source hsource)
  refine ⟨⟨hlegalized.verify, Legalize.check_run⟩, ?_, ⟨?_, Layout.check_run husual⟩, ?_, ?_⟩
  · exact fun cause herror => hlegalized.isRedefinition_of_mangled herror
  · exact Layout.verify_run hmangled
  · exact (UnwindStage.verify_run hlaid).trans (Layout.verify_run hmangled)
  · intro o d d' sink e failure hconfigure ho hemit hfailure hverification
    obtain ⟨options, haccept, rfl⟩ := Driver.configure_eq_ok hconfigure
    obtain ⟨-, -, kind, -, rfl⟩ := Driver.accept_eq_ok haccept
    obtain ⟨_, _, ⟨rfl⟩, ⟨rfl⟩, -, -, rfl, -⟩ := Driver.emit_eq_ok hemit
    -- the driver runs what the options leave of the standard stages
    have hstages : ∀ n, ∀ s ∈ Stage.standard.drop n, s ∈ Stage.standard :=
      fun n s hs => List.mem_of_mem_drop hs
    rcases Emission.failure?_eq_some hfailure with ⟨found, hending, hsame, -⟩ | ⟨-, hother⟩
    · obtain rfl := EmitError.stage.inj hsame
      exact isMangling_of_failed (o := { o with fileKind := kind }) husual ho (hstages _) hu hending
        hverification
    · rcases hother with ⟨_, hsame, -⟩ | ⟨_, hsame, -⟩ <;> cases hsame

/-- A function and a data object whose names are two spellings of one letter. -/
def twoSpellings : CodeUnit :=
  { name := "letters"
    funcs := [{ name := "\u212a", linkage := .global, insts := [{ op := "ret" }] }]
    data := [{ name := "K", linkage := .internal, values := [{ size := 1 }] }] }

/-- The checks accept the two names and refuse the one symbol that both get, so the run fails after
mangling. -/
theorem two_spellings_clash_after_mangling :
    twoSpellings.IsSource ∧ verify (some twoSpellings) = .ok () ∧
      (runStages Profile.host { verify := true } Stage.standard twoSpellings).ending =
        .failed ⟨"mangle", .invalid (.problems [.redefinition .data "K" .func])⟩ ∧
      VerifyError.IsRedefinition (Mangle.run Profile.host
        (Legalize.run Profile.host twoSpellings).unit).unit
        (.problems [.redefinition .data "K" .func]) := by
  have hsource : twoSpellings.IsSource := by decide
  have hverify : verify (some twoSpellings) = .ok () := by decide +kernel
  have hending : (runStages Profile.host { verify := true } Stage.standard twoSpellings).ending =
      .failed ⟨"mangle", .invalid (.problems [.redefinition .data "K" .func])⟩ := by
    decide +kernel
  have hclash : verify (some (Mangle.run Profile.host
      (Legalize.run Profile.host twoSpellings).unit).unit) =
        .error (.problems [.redefinition .data "K" .func]) := by
    decide +kernel
  have hsound := standard_stages_keep_units_sound Profile.ofTriple_host hsource hverify
  exact ⟨hsource, hverify, hending, hsound.2.1 _ hclash⟩

end CodeEmission
