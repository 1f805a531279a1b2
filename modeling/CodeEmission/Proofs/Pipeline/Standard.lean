import CodeEmission.Pipeline.Run
import CodeEmission.Proofs.CodeUnit.Soundness
import CodeEmission.Stage.Standard

/-!
# Runs of the Standard Stages

What is known of a unit that went through all the standard stages.

* `runStages_cons_finished`: a run that finished went through its first stage without a failure and
  finished from there.
* `Stage.failure?_eq_none`: a stage without a failure left no faults and, if the options ask for
  checks, a unit that passes them.
* `unit_of_finished`: a finished run leaves `standardResult`, and legalization refused nothing.
* `runStages_standard_finished`: the unit at the end of a finished run is `standardResult`, and with
  checks on it and the unit after mangling pass.
-/

namespace CodeEmission

/-- A mangled unit after the remaining stages: laid out and with unwind records. -/
def afterMangling (p : Profile) (u : CodeUnit) : CodeUnit :=
  (UnwindStage.run p (Layout.run p u).unit).unit

/-- A unit after all standard stages. -/
def standardResult (p : Profile) (u : CodeUnit) : CodeUnit :=
  afterMangling p (Mangle.mangled p (Legalize.run p u).unit)

variable {p : Profile} {o : Options} {u : CodeUnit}

/-- A stage that did not fail left no faults, and its unit passes if it was checked. -/
theorem Stage.failure?_eq_none {s : Stage} {out : StageOutcome}
    (h : s.failure? p o.verify out = none) :
    out.faults = [] ∧ (o.verify = true → verify (some out.unit) = .ok ()) := by
  unfold Stage.failure? at h
  split at h
  · cases h
  next hfaults =>
    refine ⟨Decidable.not_not.mp hfaults, fun hverify => ?_⟩
    rw [if_pos hverify] at h
    split at h
    · cases h
    next hok => exact hok

/-- A run that finished went through its first stage without a failure and finished from there. -/
theorem runStages_cons_finished {s : Stage} {rest : List Stage}
    (h : (runStages p o (s :: rest) u).ending = .finished) :
    s.failure? p o.verify (s.run p u) = none ∧
      (runStages p o rest (s.run p u).unit).ending = .finished ∧
      (runStages p o (s :: rest) u).unit = (runStages p o rest (s.run p u).unit).unit := by
  rw [runStages] at h ⊢
  dsimp only at h ⊢
  split at h
  · cases h
  next hnone =>
    split at h
    · cases h
    next hstop =>
      rw [hnone, if_neg hstop]
      exact ⟨rfl, h, rfl⟩

/-- A finished run of the standard stages, checked or not, leaves the unit after all of them, and
legalization refused nothing. -/
theorem unit_of_finished (h : (runStages p o Stage.standard u).ending = .finished) :
    (runStages p o Stage.standard u).unit = standardResult p u ∧ Legalize.faults p u = [] := by
  rw [Stage.standard] at h ⊢
  obtain ⟨hlegalize, h, hunit⟩ := runStages_cons_finished h
  obtain ⟨-, h, hunit'⟩ := runStages_cons_finished h
  obtain ⟨-, h, hunit''⟩ := runStages_cons_finished h
  obtain ⟨-, -, hunit'''⟩ := runStages_cons_finished h
  rw [hunit, hunit', hunit'', hunit''']
  exact ⟨rfl, (Stage.failure?_eq_none hlegalize).1⟩

/-- A finished run of the standard stages, checked after every stage: what it leaves behind passes
the checks, as did the mangled unit. -/
theorem runStages_standard_finished (hverify : o.verify = true)
    (h : (runStages p o Stage.standard u).ending = .finished) :
    (runStages p o Stage.standard u).unit = standardResult p u ∧
      verify (some (Mangle.mangled p (Legalize.run p u).unit)) = .ok () ∧
      verify (some (standardResult p u)) = .ok () := by
  rw [Stage.standard] at h ⊢
  obtain ⟨-, h, hunit⟩ := runStages_cons_finished h
  obtain ⟨hmangle, h, hunit'⟩ := runStages_cons_finished h
  obtain ⟨-, h, hunit''⟩ := runStages_cons_finished h
  obtain ⟨hunwind, -, hunit'''⟩ := runStages_cons_finished h
  rw [hunit, hunit', hunit'', hunit''']
  exact ⟨rfl, (Stage.failure?_eq_none hmangle).2 hverify,
    (Stage.failure?_eq_none hunwind).2 hverify⟩

end CodeEmission
