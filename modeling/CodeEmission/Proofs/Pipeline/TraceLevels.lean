import CodeEmission.Proofs.Pipeline.Window
import CodeEmission.Proofs.Trace.Nesting

/-!
# One Run Traced at Two Levels

The log of a run is balanced, whichever stages were skipped, failed or never came to their turn, and
whether or not the result was written. So all that is known about logs holds of it.

`Emission.coarser_trace_projects`: the trace of a run at any level is the projection of its trace at
the level `debug`, and its spans are nested.
-/

namespace CodeEmission

open Trace

/-- The log of a stage opens and closes one span. -/
theorem StageStep.balanced_acts (s : StageStep) : Balanced s.acts := by
  have hnotes : Balanced (s.notes.map fun n => .point .symbol ("symbol:" ++ n.symbol) n.name) := by
    rw [List.map_eq_flatMap]
    exact .flatMap fun n _ => .point _ _ _ .nil
  unfold acts
  cases s.failure? with
  | none => exact .span _ _ _ _ hnotes .nil
  | some f => exact .span _ _ _ _ hnotes .nil

theorem WriteStep.balanced_acts (kind : FileKind) (w : WriteStep) : Balanced (w.acts kind) := by
  cases w with
  | written output => exact .span _ _ _ _ .nil .nil
  | unrendered cause => exact .span _ _ _ _ .nil .nil
  | refused text => exact .span _ _ _ _ .nil .nil

/-- The log of a run opens and closes the span of the unit, around everything else. -/
theorem Emission.balanced_acts (e : Emission) : Balanced e.acts := by
  have hskipped :
      Balanced (e.skipped.map fun name => .point .stage ("stage:" ++ name) "skipped") := by
    rw [List.map_eq_flatMap]
    exact .flatMap fun name _ => .point _ _ _ .nil
  have hinner := (hskipped.append (.flatMap fun s (_ : s ∈ e.run.steps) => s.balanced_acts)).append
    (.flatMap fun w (_ : w ∈ e.write?.toList) => w.balanced_acts e.kind)
  unfold acts
  cases e.failure? with
  | none => exact .span _ _ _ _ hinner .nil
  | some f => exact .span _ _ _ _ hinner .nil

/-- Tracing at a coarser level projects the trace of the level `debug`. Whatever the outcome of a
run, and wherever its traces are kept, the stores of a recorder show what an observer of its level
sees, numbered in increasing order, as long as the counters have room. What an observer of any level
sees is what one of the level `debug` sees without the events that the level does not admit: spans
are renumbered in order, and the parent of an event is the nearest span around it that is recorded,
or the caller's. At every level spans are nested, and each is closed once after it was opened. -/
theorem Emission.coarser_trace_projects (e : Emission) (fine coarse : Observer)
    (hfine : fine.level = .debug) (q q' : Request) (hq : fine.level = q.level)
    (hq' : coarse.level = q'.level) {tracer tracer' : Tracer} (htracer : q.tracer = .ok tracer)
    (htracer' : q'.tracer = .ok tracer') (lastSeq lastSpan lastSeq' lastSpan' : UInt64)
    (hseqs : lastSeq.toNat + q.storeCount * e.acts.length < UInt64.size)
    (hspans : lastSpan.toNat + e.acts.length < UInt64.size)
    (hseqs' : lastSeq'.toNat + q'.storeCount * e.acts.length < UInt64.size)
    (hspans' : lastSpan'.toNat + e.acts.length < UInt64.size) :
    (play fine.caller e.acts { tracer, lastSeq, lastSpan, now := fine.now }).Shows q lastSeq
        (fine.run { lastSpan } e.acts) ∧
      (play coarse.caller e.acts { tracer := tracer', lastSeq := lastSeq', lastSpan := lastSpan'
                                   now := coarse.now }).Shows q' lastSeq'
        (coarse.run { lastSpan := lastSpan' } e.acts) ∧
      (∀ place < q.storeCount,
        (numbered lastSeq q.storeCount place (fine.run { lastSpan } e.acts)).Pairwise
          fun a b => a.seq < b.seq) ∧
      (∀ place < q'.storeCount,
        (numbered lastSeq' q'.storeCount place
          (coarse.run { lastSpan := lastSpan' } e.acts)).Pairwise fun a b => a.seq < b.seq) ∧
      IsProjection coarse.level coarse.caller (fine.run { lastSpan } e.acts)
        (coarse.run { lastSpan := lastSpan' } e.acts) ∧
      Nested (coarse.run { lastSpan := lastSpan' } e.acts) ∧
      ClosedOnce (coarse.run { lastSpan := lastSpan' } e.acts) := by
  have hnumbered : ∀ {q : Request} {lastSeq : UInt64} {o : Observer} {c : Cursor} {place : Nat},
      lastSeq.toNat + q.storeCount * e.acts.length < UInt64.size → place < q.storeCount →
      (numbered lastSeq q.storeCount place (o.run c e.acts)).Pairwise fun a b => a.seq < b.seq := by
    intro q lastSeq o c place hroom hplace
    refine numbered_sorted hplace (Nat.lt_of_le_of_lt (Nat.add_le_add_left ?_ _) hroom)
    exact Nat.mul_le_mul_left _ (o.length_run_le c e.acts)
  exact ⟨Recorder.shows_play htracer hq lastSeq lastSpan hspans,
    Recorder.shows_play htracer' hq' lastSeq' lastSpan' hspans', fun _ => hnumbered hseqs,
    fun _ => hnumbered hseqs', Observer.isProjection_run hfine hspans hspans',
    Observer.nested_run e.balanced_acts lastSpan', Observer.closedOnce_run e.balanced_acts hspans'⟩

/-- A run that skips a stage and fails in the next, inside the caller's span 7. Without the span of
the unit, which is finer than a stage, the caller's span is around the stages. -/
theorem Emission.late_trace_projects :
    ∃ e d', lateDriver.emit (some twoSpellings) .accepting = .ok (e, d') ∧
      (Observer.run ⟨.debug, 7, 0⟩ { lastSpan := 7 } e.acts).map
          (fun x => (x.kind, x.span, x.parent)) =
        [(.opens, 8, 7), (.point, 0, 8), (.opens, 9, 8), (.point, 0, 9), (.point, 0, 9),
          (.closes, 9, 8), (.closes, 8, 7)] ∧
      (Observer.run ⟨.phase, 7, 0⟩ { lastSpan := 7 } e.acts).map
          (fun x => (x.kind, x.span, x.parent)) =
        [(.point, 0, 7), (.opens, 8, 7), (.closes, 8, 7)] ∧
      IsProjection .phase 7 (Observer.run ⟨.debug, 7, 0⟩ { lastSpan := 7 } e.acts)
        (Observer.run ⟨.phase, 7, 0⟩ { lastSpan := 7 } e.acts) := by
  let e := Emission.ofDriver lateDriver Profile.host twoSpellings .accepting
  have hlength : e.acts.length = 7 := by decide +kernel
  have hprojects := e.coarser_trace_projects ⟨.debug, 7, 0⟩ ⟨.phase, 7, 0⟩ rfl
    { level := .debug, storage := .both } { level := .phase, storage := .stream } rfl rfl rfl rfl
    0 7 0 7 (by rw [hlength]; decide) (by rw [hlength]; decide) (by rw [hlength]; decide)
    (by rw [hlength]; decide)
  exact ⟨e, _, rfl, by decide +kernel, by decide +kernel, hprojects.2.2.2.2.1⟩

end CodeEmission
