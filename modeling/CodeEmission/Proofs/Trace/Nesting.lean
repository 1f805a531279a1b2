import CodeEmission.Proofs.Trace.Projection

/-!
# Nested Spans

In a log that is balanced every span is closed after what lies in it. The trace of such a log is
nested at every level: spans that are not recorded leave what lies in them to the span around them.

* `Balanced` and `Nested`: the shapes of logs and of traces.
* `Observer.nested_run`: the trace of a balanced log is nested.
* `Nested.exists_closing`: an opening in a nested trace has its closing behind it, with a nested
  trace in between.
* `Observer.closedOnce_run`: it has no other closing.
-/

namespace CodeEmission.Trace

/-- Every span of a log is closed, and those in it before it. -/
inductive Balanced : List Act → Prop where
  | nil : Balanced []
  | point {rest : List Act} (scope : Scope) (name detail : String) (hrest : Balanced rest) :
      Balanced (.point scope name detail :: rest)
  | span {inner rest : List Act} (scope : Scope) (name detail : String)
      (extras : List (String × String)) (hinner : Balanced inner) (hrest : Balanced rest) :
      Balanced (.opens scope name :: (inner ++ .closes detail extras :: rest))

/-- Every span of a trace is closed, under its number, and those in it before it. -/
inductive Nested : List Event → Prop where
  | nil : Nested []
  | point {e : Event} {rest : List Event} (he : e.kind = .point) (hrest : Nested rest) :
      Nested (e :: rest)
  | span {o c : Event} {inner rest : List Event} (ho : o.kind = .opens) (hc : c.kind = .closes)
      (hspan : c.span = o.span) (hinner : Nested inner) (hrest : Nested rest) :
      Nested (o :: (inner ++ c :: rest))

/-- Whether an event closes the span of a number. -/
def Event.closesSpan (id : UInt64) (e : Event) : Bool :=
  e.kind = .closes && e.span = id

/-- Whether an event opens the span of a number. -/
def Event.opensSpan (id : UInt64) (e : Event) : Bool :=
  e.kind = .opens && e.span = id

/-- After the opening of a span exactly one event closes it. -/
def ClosedOnce (events : List Event) : Prop :=
  ∀ before o after, events = before ++ o :: after → o.kind = .opens →
    after.countP (Event.closesSpan o.span) = 1

theorem Balanced.append {before after : List Act} (hbefore : Balanced before)
    (hafter : Balanced after) : Balanced (before ++ after) := by
  induction hbefore with
  | nil => exact hafter
  | point scope name detail _ ih => exact .point scope name detail ih
  | span scope name detail extras hinner _ _ ih =>
    rw [List.cons_append, List.append_assoc, List.cons_append]
    exact .span scope name detail extras hinner ih

theorem Balanced.flatMap {α : Type} {f : α → List Act} {as : List α}
    (h : ∀ a ∈ as, Balanced (f a)) : Balanced (as.flatMap f) := by
  induction as with
  | nil => exact .nil
  | cons a rest ih =>
    obtain ⟨hfirst, hrest⟩ := List.forall_mem_cons.mp h
    exact hfirst.append (ih hrest)

theorem Nested.append {before after : List Event} (hbefore : Nested before)
    (hafter : Nested after) : Nested (before ++ after) := by
  induction hbefore with
  | nil => exact hafter
  | point he _ ih => exact .point he ih
  | span ho hc hspan hinner _ _ ih =>
    rw [List.cons_append, List.append_assoc, List.cons_append]
    exact .span ho hc hspan hinner ih

/-! ## Traces of balanced logs -/

/-- A balanced part of a log leaves a nested trace, and then the spans around it are open as
before. -/
theorem Observer.run_append_of_balanced {o : Observer} {acts : List Act} (hacts : Balanced acts)
    (spans : List Span) (lastSpan : UInt64) (more : List Act) :
    ∃ events lastSpan', Nested events ∧ o.run { spans, lastSpan } (acts ++ more) =
      events ++ o.run { spans, lastSpan := lastSpan' } more := by
  -- what follows is arbitrary, since the end of a span follows what lies in it
  induction hacts generalizing spans lastSpan more with
  | nil => exact ⟨[], lastSpan, .nil, rfl⟩
  | point scope name detail _ ih =>
    obtain ⟨events, lastSpan', hevents, hrun⟩ := ih spans lastSpan more
    rw [List.cons_append, run]
    cases hadmits : o.level.admits scope with
    | true =>
      refine ⟨_, lastSpan', Nested.point (e := o.marking { spans, lastSpan } scope name detail) rfl
        hevents, ?_⟩
      rw [step_point hadmits, hrun]
      rfl
    | false =>
      refine ⟨events, lastSpan', hevents, ?_⟩
      rw [step, hadmits, ← hrun]
      rfl
  | @span inner rest scope name detail extras _ _ ihinner ihrest =>
    rw [List.cons_append, List.append_assoc, List.cons_append, run]
    cases hadmits : o.level.admits scope with
    | true =>
      let s := o.opened { spans, lastSpan } scope name
      obtain ⟨events, last, hevents, hinner⟩ :=
        ihinner (s :: spans) (lastSpan + 1) (.closes detail extras :: (rest ++ more))
      obtain ⟨later, last', hlater, hrest⟩ := ihrest spans last more
      refine ⟨_, last', Nested.span (o := o.opening s) (c := o.closing s detail extras) rfl rfl rfl
        hevents hlater, ?_⟩
      rw [step_opens hadmits, hinner, run, step_closes_cons rfl, hrest]
      simp [s, opened]
    | false =>
      -- what lies in a span that is not recorded stands in its place
      obtain ⟨events, last, hevents, hinner⟩ :=
        ihinner ({} :: spans) lastSpan (.closes detail extras :: (rest ++ more))
      obtain ⟨later, last', hlater, hrest⟩ := ihrest spans last more
      refine ⟨events ++ later, last', hevents.append hlater, ?_⟩
      rw [step, hadmits, if_neg Bool.false_ne_true, hinner, run, step_closes_cons rfl, hrest]
      simp

/-- The trace of a balanced log is nested. -/
theorem Observer.nested_run {o : Observer} {acts : List Act} (hacts : Balanced acts)
    (lastSpan : UInt64) : Nested (o.run { lastSpan } acts) := by
  obtain ⟨events, lastSpan', hevents, hrun⟩ := o.run_append_of_balanced hacts [] lastSpan []
  rw [List.append_nil, run, List.append_nil] at hrun
  rw [hrun]
  exact hevents

/-! ## Openings and closings -/

/-- An opening has its closing behind it, with a nested trace in between. -/
theorem Nested.exists_closing {events before after : List Event} {o : Event} (h : Nested events)
    (hsplit : events = before ++ o :: after) (ho : o.kind = .opens) :
    ∃ inner c rest, after = inner ++ c :: rest ∧ Nested inner ∧ c.kind = .closes ∧
      c.span = o.span := by
  induction h generalizing before after with
  | nil => simp at hsplit
  | point he _ ih =>
    cases before with
    | nil =>
      obtain ⟨rfl, -⟩ := List.cons.inj hsplit
      rw [he] at ho
      cases ho
    | cons x before => exact ih (List.cons.inj hsplit).2
  | @span o' c inner rest ho' hc hspan hinner hrest ihinner ihrest =>
    cases before with
    | nil =>
      obtain ⟨rfl, rfl⟩ := List.cons.inj hsplit
      exact ⟨inner, c, rest, rfl, hinner, hc, hspan⟩
    | cons x before =>
      have hclosing : c ≠ o := by
        rintro rfl
        rw [hc] at ho
        cases ho
      -- the opening stands in the span or behind it, but is not its closing
      rcases List.append_eq_append_iff.mp (List.cons.inj hsplit).2 with
        ⟨middle, hbefore, hrest⟩ | ⟨middle, hinner, hafter⟩
      · cases middle with
        | nil => exact absurd (List.cons.inj hrest).1 hclosing
        | cons y middle => exact ihrest (List.cons.inj hrest).2
      · cases middle with
        | nil => exact absurd (List.cons.inj hafter).1.symm hclosing
        | cons y middle =>
          obtain ⟨rfl, htail⟩ := List.cons.inj hafter
          obtain ⟨inner', c', rest', rfl, hfacts⟩ := ihinner hinner
          exact ⟨inner', c', rest' ++ c :: rest, by simp [htail], hfacts⟩

/-- A span of a nested trace is closed as often as it is opened. -/
theorem Nested.countP_closesSpan {events : List Event} (h : Nested events) (id : UInt64) :
    events.countP (Event.closesSpan id) = events.countP (Event.opensSpan id) := by
  induction h with
  | nil => rfl
  | point he _ ih => simp [Event.closesSpan, Event.opensSpan, he, ih]
  | span ho hc hspan _ _ ihinner ihrest =>
    simp [List.countP_cons, Event.closesSpan, Event.opensSpan, ho, hc, hspan] at *
    omega

/-- The numbers of the spans that are opened. -/
theorem Observer.map_span_run (o : Observer) (c : Cursor) (acts : List Act) :
    ((o.run c acts).filter fun e => e.kind = .opens).map Event.span =
      spanIds o.level.admits o.level.admits c.lastSpan acts := by
  induction acts generalizing c with
  | nil => rfl
  | cons act rest ih =>
    rw [run, List.filter_append, List.map_append, ih, o.spanIds_cons c]
    congr 1
    cases act with
    | opens scope name =>
      cases hadmits : o.level.admits scope with
      | true => simp [step_opens hadmits, hadmits, opening, opened]
      | false => simp [step, hadmits]
    | closes detail extras =>
      rw [step]
      split
      · rfl
      · split <;> rfl
    | point scope name detail =>
      rw [step]
      split <;> rfl

/-- In the trace of a balanced log a span is closed exactly once after it was opened, as long as the
counter of spans has room. -/
theorem Observer.closedOnce_run {o : Observer} {acts : List Act} (hacts : Balanced acts)
    {lastSpan : UInt64} (hroom : lastSpan.toNat + acts.length < UInt64.size) :
    ClosedOnce (o.run { lastSpan } acts) := by
  intro before e after hsplit he
  have hnested := o.nested_run hacts lastSpan
  obtain ⟨inner, c, rest, hafter, -, hc, hspan⟩ := hnested.exists_closing hsplit he
  -- no other span has its number
  have hopened : (o.run { lastSpan } acts).countP (Event.opensSpan e.span) ≤ 1 := by
    have hids := (List.pairwise_cons.mp (spanIds_sorted _ o.level.admits (fun _ h => h) hroom)).2
    rw [← o.map_span_run { lastSpan } acts] at hids
    have hcount := List.nodup_iff_count.mp (hids.imp UInt64.ne_of_lt) e.span
    rw [List.count, List.countP_map, List.countP_filter] at hcount
    refine Nat.le_trans (Nat.le_of_eq (List.countP_congr fun x _ => ?_)) hcount
    simp [Event.opensSpan, and_comm]
  -- so there is one closing at most, and it stands behind the opening
  have hclosed := Nat.le_trans (Nat.le_of_eq (hnested.countP_closesSpan e.span)) hopened
  rw [hsplit, List.countP_append, List.countP_cons] at hclosed
  have hbehind : 0 < after.countP (Event.closesSpan e.span) := by
    refine List.countP_pos_iff.mpr ⟨c, by simp [hafter], ?_⟩
    simp [Event.closesSpan, hc, hspan]
  omega

end CodeEmission.Trace
