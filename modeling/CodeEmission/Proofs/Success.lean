/-!
# When Steps Succeed

Computations that may fail, taken apart: several steps succeed when each of them does, on what the
one before it left. For results with a state, which is kept also when a step fails, the lemmas say
what two steps come to.
-/

namespace CodeEmission

variable {ε σ α β : Type}

/-- Two steps succeed when the first does and then the second on its result. -/
theorem bind_eq_ok_iff {x : Except ε α} {f : α → Except ε β} {b : β} :
    (x >>= f) = .ok b ↔ ∃ a, x = .ok a ∧ f a = .ok b := by
  cases x <;> simp [bind, Except.bind]

/-- A step with its result changed succeeds when the step does. -/
theorem map_eq_ok_iff {x : Except ε α} {f : α → β} {b : β} :
    x.map f = .ok b ↔ ∃ a, x = .ok a ∧ f a = b := by
  cases x <;> simp [Except.map]

/-- Two steps on a state, the second on the result and the state of the first. -/
theorem run_bind_eq (x : StateM σ α) (f : α → StateM σ β) (s : σ) :
    (x >>= f).run s = (f (x.run s).1).run (x.run s).2 := rfl

/-- The second of two steps on a state is left out when the first fails, and keeps its state. -/
theorem run_run_bind_eq (x : ExceptT ε (StateM σ) α) (f : α → ExceptT ε (StateM σ) β) (s : σ) :
    (x >>= f).run.run s =
      match x.run.run s with
      | (.ok a, s₁) => (f a).run.run s₁
      | (.error e, s₁) => (.error e, s₁) := by
  rw [ExceptT.run_bind, run_bind_eq]
  obtain ⟨result, s₁⟩ := x.run.run s
  cases result <;> rfl

/-- A step that cannot fail, and then one that may. -/
theorem run_run_lift_bind_eq (x : StateM σ α) (f : α → ExceptT ε (StateM σ) β) (s : σ) :
    (ExceptT.lift x >>= f).run.run s = (f (x.run s).1).run.run (x.run s).2 := by
  rw [run_run_bind_eq]
  rfl

end CodeEmission
