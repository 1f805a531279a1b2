import CodeEmission.Proofs.Trace.Recorded

/-!
# Coarser Traces

A level that records less sees a part of what the level `debug` sees. `project` says which part: the
events of scopes that the level does not admit are left out, and the parent of an event is the
nearest span around it that is not left out, or the caller's. Spans have other numbers there, in the
same order.

* `exists_renumbering`: two increasing lists of one length are renumberings of each other.
* `Sim`: the open spans at two levels, at one position of a log.
* `Observer.isProjection_run`: what any level sees is the projection of what `debug` sees.
* `numbered_sorted`: each store numbers events in their order.
-/

namespace CodeEmission.Trace

/-! ## Projections -/

/-- An event without the marks of a run: its time and its number. -/
def Event.unstamped (e : Event) : Event :=
  { e with time := 0, seq := 0 }

/-- The spans around an event, given the events that opened the spans open before it, the innermost
first. A span that is closed is not around itself. -/
def around (opened : List Event) (e : Event) : List Event :=
  if e.kind = .closes then opened.filter fun o => o.span ≠ e.span else opened

/-- The spans that are open after an event. -/
def openAfter (opened : List Event) (e : Event) : List Event :=
  if e.kind = .opens then e :: around opened e else around opened e

/-- The new number of the nearest span that a level admits, or the caller's span if there is
none. -/
def nearest (level : Level) (caller : UInt64) (renumber : UInt64 → UInt64)
    (opened : List Event) : UInt64 :=
  ((opened.find? fun o => level.admits o.scope).map fun o => renumber o.span).getD caller

/-- The part of a trace that a level admits. -/
def project (level : Level) (caller : UInt64) (renumber : UInt64 → UInt64) :
    List Event → List Event → List Event
  | _, [] => []
  | opened, e :: rest =>
    (if level.admits e.scope then
      [{ e.unstamped with
          span := renumber e.span, parent := nearest level caller renumber (around opened e) }]
    else []) ++ project level caller renumber (openAfter opened e) rest

/-- A trace is the projection of a finer one to a level, inside the caller's span: the numbers of
the spans that are kept are changed so that their order stays. -/
def IsProjection (level : Level) (caller : UInt64) (fine coarse : List Event) : Prop :=
  ∃ renumber : UInt64 → UInt64, renumber 0 = 0 ∧
    (∀ a ∈ fine, ∀ b ∈ fine, level.admits a.scope = true → level.admits b.scope = true →
      a.span < b.span → renumber a.span < renumber b.span) ∧
    coarse.map Event.unstamped = project level caller renumber [] fine

section Project

variable {level : Level} {caller : UInt64} {renumber : UInt64 → UInt64} {opened : List Event}
  {e : Event}

theorem project_of_admits (h : level.admits e.scope = true) :
    project level caller renumber opened [e] =
      [{ e.unstamped with
          span := renumber e.span
          parent := nearest level caller renumber (around opened e) }] := by
  rw [project, if_pos h]
  rfl

theorem project_of_not_admits (h : level.admits e.scope = false) :
    project level caller renumber opened [e] = [] := by
  rw [project, if_neg (by rw [h]; exact Bool.false_ne_true)]
  rfl

theorem project_append (level : Level) (caller : UInt64) (renumber : UInt64 → UInt64)
    (opened events more : List Event) :
    project level caller renumber opened (events ++ more) =
      project level caller renumber opened events ++
        project level caller renumber (events.foldl openAfter opened) more := by
  induction events generalizing opened with
  | nil => rfl
  | cons e rest ih =>
    rw [List.cons_append, project, ih, project, List.append_assoc, List.foldl_cons]

end Project

/-! ## Numbers of spans -/

/-- The numbers of the spans that a log opens, when the spans of some scopes are counted and those
of some of these are kept. -/
def spanIds (counts keeps : Scope → Bool) (last : UInt64) : List Act → List UInt64
  | [] => []
  | .opens scope _ :: rest =>
    let next := if counts scope then last + 1 else last
    (if keeps scope then [next] else []) ++ spanIds counts keeps next rest
  | .closes _ _ :: rest => spanIds counts keeps last rest
  | .point _ _ _ :: rest => spanIds counts keeps last rest

section Numbers

variable {counts keeps : Scope → Bool} {last : UInt64} {acts : List Act}

/-- Later spans have higher numbers, as long as the counter has room. -/
theorem spanIds_sorted (counts keeps : Scope → Bool)
    (hkeeps : ∀ scope, keeps scope = true → counts scope = true)
    (hroom : last.toNat + acts.length < UInt64.size) :
    (last :: spanIds counts keeps last acts).Pairwise (· < ·) := by
  induction acts generalizing last with
  | nil => exact List.pairwise_singleton _ _
  | cons act rest ih =>
    rw [List.length_cons] at hroom
    cases act with
    | opens scope name =>
      rw [spanIds]
      cases hcounts : counts scope with
      | false =>
        have hdropped : keeps scope = false :=
          Bool.eq_false_iff.mpr fun hkept => by simp [hkeeps scope hkept] at hcounts
        simpa [hdropped] using ih (show last.toNat + rest.length < _ by omega)
      | true =>
        have hlt : last < last + 1 := lt_add_one_of_room (by omega)
        have hrest := ih (show (last + 1).toNat + rest.length < _ by
          rw [toNat_add_one_of_room (by omega)]
          omega)
        have hbelow : ∀ x ∈ spanIds counts keeps (last + 1) rest, last < x :=
          fun x hx => UInt64.lt_trans hlt ((List.pairwise_cons.mp hrest).1 x hx)
        cases keeps scope with
        | false => exact List.pairwise_cons.mpr ⟨hbelow, (List.pairwise_cons.mp hrest).2⟩
        | true =>
          exact List.pairwise_cons.mpr ⟨List.forall_mem_cons.mpr ⟨hlt, hbelow⟩, hrest⟩
    | closes detail extras => exact ih (by omega)
    | point scope name detail => exact ih (by omega)

/-- Which spans are counted does not change how many are kept. -/
theorem length_spanIds (counts counts' keeps : Scope → Bool) (last last' : UInt64)
    (acts : List Act) :
    (spanIds counts keeps last acts).length = (spanIds counts' keeps last' acts).length := by
  induction acts generalizing last last' with
  | nil => rfl
  | cons act rest ih =>
    cases act with
    | opens scope name =>
      simp only [spanIds, List.length_append]
      rw [ih]
      cases keeps scope <;> rfl
    | closes detail extras => exact ih _ _
    | point scope name detail => exact ih _ _

/-- Two increasing lists of one length are renumberings of each other, in order. -/
theorem exists_renumbering {xs ys : List UInt64} (hxs : xs.Pairwise (· < ·))
    (hys : ys.Pairwise (· < ·)) (hlength : xs.length = ys.length) :
    ∃ renumber : UInt64 → UInt64, xs.map renumber = ys ∧
      ∀ a ∈ xs, ∀ b ∈ xs, a < b → renumber a < renumber b := by
  induction xs generalizing ys with
  | nil =>
    obtain rfl := List.length_eq_zero_iff.mp hlength.symm
    exact ⟨id, rfl, nofun⟩
  | cons x xs ih =>
    cases ys with
    | nil => cases hlength
    | cons y ys =>
      obtain ⟨hx, hxs⟩ := List.pairwise_cons.mp hxs
      obtain ⟨hy, hys⟩ := List.pairwise_cons.mp hys
      obtain ⟨renumber, rfl, hmono⟩ := ih hxs hys (Nat.succ.inj hlength)
      -- the first number comes before all others, so it can be mapped apart from them
      have hfirst : Function.update renumber x y x = y := Function.update_self ..
      have hrest : ∀ z ∈ xs, Function.update renumber x y z = renumber z :=
        fun z hz => Function.update_of_ne (UInt64.ne_of_lt (hx z hz)).symm ..
      refine ⟨Function.update renumber x y, ?_, ?_⟩
      · rw [List.map_cons, hfirst, List.map_congr_left hrest]
      · refine List.forall_mem_cons.mpr ⟨List.forall_mem_cons.mpr ⟨?_, ?_⟩, fun a ha =>
          List.forall_mem_cons.mpr ⟨?_, ?_⟩⟩
        · exact fun hlt => absurd hlt (UInt64.lt_irrefl x)
        · intro b hb hlt
          rw [hfirst, hrest b hb]
          exact hy _ (List.mem_map_of_mem hb)
        · exact fun hlt => absurd (UInt64.lt_trans hlt (hx a ha)) (UInt64.lt_irrefl a)
        · intro b hb hlt
          rw [hrest a ha, hrest b hb]
          exact hmono a ha b hb hlt

end Numbers

/-! ## Two levels at once -/

/-- The open spans at one position of a log: by the events that opened them, at the finer level, and
at the coarser level, where a span that is not admitted is disabled. -/
inductive Sim (level : Level) (caller : UInt64) (renumber : UInt64 → UInt64) :
    List Event → List Span → List Span → Prop where
  | nil : Sim level caller renumber [] [] []
  | kept {opened : List Event} {fine coarse : List Span} {e : Event} {s : Span}
      (outer : Sim level caller renumber opened fine coarse) (henabled : s.enabled = true)
      (hspan : e.span = s.id) (hscope : e.scope = s.scope) (hadmits : level.admits s.scope = true)
      (hid : renumber s.id ≠ 0) :
      Sim level caller renumber (e :: opened) (s :: fine)
        ({ s with id := renumber s.id, parent := enclosing caller coarse } :: coarse)
  | dropped {opened : List Event} {fine coarse : List Span} {e : Event} {s : Span}
      (outer : Sim level caller renumber opened fine coarse) (henabled : s.enabled = true)
      (hspan : e.span = s.id) (hscope : e.scope = s.scope)
      (hadmits : level.admits s.scope = false) :
      Sim level caller renumber (e :: opened) (s :: fine) ({} :: coarse)

section Sim

variable {level : Level} {caller : UInt64} {renumber : UInt64 → UInt64} {opened : List Event}
  {fine coarse : List Span}

/-- The nearest span that is kept is the innermost one at the coarser level. -/
theorem Sim.nearest_eq (h : Sim level caller renumber opened fine coarse) :
    nearest level caller renumber opened = enclosing caller coarse := by
  induction h with
  | nil => rfl
  | kept outer henabled hspan hscope hadmits hid =>
    simp [nearest, enclosing, hscope, hadmits, hspan, hid]
  | dropped outer henabled hspan hscope hadmits ih =>
    rw [enclosing, if_pos rfl, ← ih]
    simp [nearest, hscope, hadmits]

/-- A span that is open at the finer level is one of those that were opened. -/
theorem Sim.exists_span (h : Sim level caller renumber opened fine coarse) {e : Event}
    (he : e ∈ opened) : ∃ s ∈ fine, s.enabled = true ∧ e.span = s.id := by
  induction h with
  | nil => cases he
  -- the innermost span is recorded at the finer level in both cases
  | @kept _ _ _ e' s outer henabled hspan hscope hadmits hid ih =>
    rcases List.mem_cons.mp he with rfl | he
    · exact ⟨s, List.mem_cons_self, henabled, hspan⟩
    · obtain ⟨t, ht, hfacts⟩ := ih he
      exact ⟨t, List.mem_cons_of_mem _ ht, hfacts⟩
  | @dropped _ _ _ e' s outer henabled hspan hscope hadmits ih =>
    rcases List.mem_cons.mp he with rfl | he
    · exact ⟨s, List.mem_cons_self, henabled, hspan⟩
    · obtain ⟨t, ht, hfacts⟩ := ih he
      exact ⟨t, List.mem_cons_of_mem _ ht, hfacts⟩

/-- Around the innermost span lie the others: no other open span has its number. -/
theorem Sim.around_closing {e : Event} {s : Span} {outer : List Span}
    (h : Sim level caller renumber opened outer coarse) (closing : Event) (hspan : e.span = s.id)
    (hkind : closing.kind = .closes) (hclosing : closing.span = s.id)
    (hdistinct : ∀ t ∈ outer, t.enabled = true → t.id ≠ s.id) :
    around (e :: opened) closing = opened := by
  rw [around, if_pos hkind, List.filter_cons, hspan, hclosing]
  simp only [ne_eq, not_true_eq_false, decide_false, Bool.false_eq_true, if_false]
  refine List.filter_eq_self.mpr fun x hx => decide_eq_true ?_
  obtain ⟨t, ht, henabled, hid⟩ := h.exists_span hx
  rw [hid]
  exact hdistinct t ht henabled

end Sim

namespace Observer

variable {fine coarse : Observer} {renumber : UInt64 → UInt64} {opened events : List Event}
  {c c' : Cursor}

/-- Only an event that closes a span lies outside a span that is open before it. -/
theorem around_opening (o : Observer) (opened : List Event) (s : Span) :
    around opened (o.opening s) = opened :=
  rfl

theorem around_marking (o : Observer) (opened : List Event) (c : Cursor) (scope : Scope)
    (name detail : String) : around opened (o.marking c scope name detail) = opened :=
  rfl

theorem openAfter_closing (o : Observer) (opened : List Event) (s : Span) (detail : String)
    (extras : List (String × String)) :
    openAfter opened (o.closing s detail extras) = around opened (o.closing s detail extras) :=
  rfl

/-- The position after an entry, as far as numbers go. -/
theorem spanIds_cons (o : Observer) (c : Cursor) (keeps : Scope → Bool) (act : Act)
    (rest : List Act) :
    spanIds o.level.admits keeps c.lastSpan (act :: rest) =
      (match act with
        | .opens scope _ => if keeps scope then [(o.step c act).2.lastSpan] else []
        | .closes _ _ | .point _ _ _ => []) ++
      spanIds o.level.admits keeps (o.step c act).2.lastSpan rest := by
  cases act with
  | opens scope name =>
    have hlast : (o.step c (.opens scope name)).2.lastSpan =
        if o.level.admits scope then c.lastSpan + 1 else c.lastSpan := by
      rw [step]
      split <;> rfl
    rw [spanIds, hlast]
  | closes detail extras =>
    have hlast : (o.step c (.closes detail extras)).2.lastSpan = c.lastSpan := by
      rw [step]
      split <;> rfl
    rw [spanIds, hlast, List.nil_append]
  | point scope name detail => rfl

/-- An entry of a log, at both levels: the coarser one sees the projection, and the open spans still
correspond. -/
theorem step_eq_project (hfine : fine.level = .debug)
    (hsim : Sim coarse.level coarse.caller renumber opened c.spans c'.spans)
    (hc : c.Valid fine.level events) (hzero : renumber 0 = 0) {act : Act}
    (hid : ∀ scope name, act = .opens scope name → coarse.level.admits scope = true →
      renumber (c.lastSpan + 1) = c'.lastSpan + 1 ∧ c'.lastSpan + 1 ≠ 0) :
    (coarse.step c' act).1.toList.map Event.unstamped =
        project coarse.level coarse.caller renumber opened (fine.step c act).1.toList ∧
      Sim coarse.level coarse.caller renumber ((fine.step c act).1.toList.foldl openAfter opened)
        (fine.step c act).2.spans (coarse.step c' act).2.spans := by
  have hdebug : ∀ scope, fine.level.admits scope = true := fun _ => hfine ▸ rfl
  cases act with
  | opens scope name =>
    rw [step_opens (hdebug scope), step]
    cases hadmits : coarse.level.admits scope with
    | true =>
      obtain ⟨hnew, hpos⟩ := hid scope name rfl hadmits
      have hspan : coarse.opened c' scope name =
          { fine.opened c scope name with
            id := renumber (fine.opened c scope name).id
            parent := enclosing coarse.caller c'.spans } := by
        simp only [Observer.opened, hnew]
      refine ⟨?_, ?_⟩
      · rw [if_pos rfl, Option.toList_some, Option.toList_some, project_of_admits hadmits, hspan,
          around_opening, hsim.nearest_eq]
        rfl
      · rw [if_pos rfl, hspan]
        exact .kept hsim rfl rfl rfl hadmits (hnew ▸ hpos)
    | false =>
      refine ⟨?_, .dropped hsim rfl rfl rfl hadmits⟩
      rw [if_neg Bool.false_ne_true, Option.toList_some, project_of_not_admits hadmits]
      rfl
  | closes detail extras =>
    -- the spans that are closed correspond, and so do those around them
    generalize hspans : c.spans = spans at hsim
    generalize hspans' : c'.spans = spans' at hsim
    cases hsim with
    | nil =>
      rw [step_closes_nil hspans, step_closes_nil hspans', hspans, hspans']
      exact ⟨rfl, .nil⟩
    | @kept opened outer outer' e s hsim henabled hspan hscope hadmits hpos =>
      rw [step_closes_cons hspans, step_closes_cons hspans', if_pos henabled, if_pos henabled]
      have haround := hsim.around_closing (fine.closing s detail extras) hspan rfl rfl
        (hc.distinct_of_cons hspans henabled)
      refine ⟨?_, ?_⟩
      · rw [Option.toList_some, Option.toList_some, project_of_admits hadmits, haround,
          hsim.nearest_eq]
        rfl
      · rw [Option.toList_some, List.foldl_cons, List.foldl_nil, openAfter_closing, haround]
        exact hsim
    | @dropped opened outer outer' e s hsim henabled hspan hscope hadmits =>
      rw [step_closes_cons hspans, step_closes_cons hspans', if_pos henabled,
        if_neg Bool.false_ne_true]
      have haround := hsim.around_closing (fine.closing s detail extras) hspan rfl rfl
        (hc.distinct_of_cons hspans henabled)
      refine ⟨?_, ?_⟩
      · rw [Option.toList_some, project_of_not_admits hadmits]
        rfl
      · rw [Option.toList_some, List.foldl_cons, List.foldl_nil, openAfter_closing, haround]
        exact hsim
  | point scope name detail =>
    rw [step_point (hdebug scope), step]
    refine ⟨?_, hsim⟩
    cases hadmits : coarse.level.admits scope with
    | true =>
      rw [if_pos rfl, Option.toList_some, Option.toList_some, project_of_admits hadmits,
        around_marking, hsim.nearest_eq, show (fine.marking c scope name detail).span = 0 from rfl,
        hzero]
      rfl
    | false =>
      rw [if_neg Bool.false_ne_true, Option.toList_some, project_of_not_admits hadmits]
      rfl

/-- A log, at both levels: the coarser one sees the projection. -/
theorem run_eq_project (hfine : fine.level = .debug)
    (hsim : Sim coarse.level coarse.caller renumber opened c.spans c'.spans)
    (hc : c.Valid fine.level events) (hzero : renumber 0 = 0) {acts : List Act}
    (hids : (spanIds fine.level.admits coarse.level.admits c.lastSpan acts).map renumber =
      spanIds coarse.level.admits coarse.level.admits c'.lastSpan acts)
    (hroom : c.lastSpan.toNat + acts.length < UInt64.size)
    (hroom' : c'.lastSpan.toNat + acts.length < UInt64.size) :
    (coarse.run c' acts).map Event.unstamped =
      project coarse.level coarse.caller renumber opened (fine.run c acts) := by
  induction acts generalizing c c' opened events with
  | nil => rfl
  | cons act rest ih =>
    rw [List.length_cons] at hroom hroom'
    have hdebug : ∀ scope, fine.level.admits scope = true := fun _ => hfine ▸ rfl
    rw [fine.spanIds_cons c, coarse.spanIds_cons c'] at hids
    -- the number of a span that is kept is renumbered, and so are those of the rest
    have hsplit : (∀ scope name, act = .opens scope name → coarse.level.admits scope = true →
          renumber (c.lastSpan + 1) = c'.lastSpan + 1 ∧ c'.lastSpan + 1 ≠ 0) ∧
        (spanIds fine.level.admits coarse.level.admits (fine.step c act).2.lastSpan rest).map
            renumber =
          spanIds coarse.level.admits coarse.level.admits (coarse.step c' act).2.lastSpan rest := by
      cases act with
      | opens scope name =>
        cases hadmits : coarse.level.admits scope with
        | false =>
          refine ⟨fun _ _ hact hadmit => ?_, by simpa [hadmits] using hids⟩
          cases hact
          rw [hadmits] at hadmit
          cases hadmit
        | true =>
          have hfirst : (fine.step c (.opens scope name)).2.lastSpan = c.lastSpan + 1 := by
            rw [step_opens (hdebug scope)]
          have hfirst' : (coarse.step c' (.opens scope name)).2.lastSpan = c'.lastSpan + 1 := by
            rw [step_opens hadmits]
          have hpos : c'.lastSpan + 1 ≠ 0 :=
            (UInt64.ne_of_lt (UInt64.lt_of_le_of_lt UInt64.zero_le
              (lt_add_one_of_room (by omega)))).symm
          simp only [hadmits, if_true, List.singleton_append, List.map_cons,
            List.cons.injEq] at hids
          exact ⟨fun _ _ _ _ => ⟨hfirst ▸ hfirst' ▸ hids.1, hpos⟩, hids.2⟩
      | closes detail extras => exact ⟨nofun, hids⟩
      | point scope name detail => exact ⟨nofun, hids⟩
    obtain ⟨hid, hrest⟩ := hsplit
    obtain ⟨hevent, hsim'⟩ := step_eq_project hfine hsim hc hzero hid
    have hlast := fine.lastSpan_step_le c act
    have hlast' := coarse.lastSpan_step_le c' act
    rw [run, run, List.map_append, project_append, hevent,
      ih hsim' (hc.step (by omega) act) hrest (by omega) (by omega)]

/-- The span of an event that a level admits is none, one that was open, or one that the log
opens. -/
theorem span_of_mem_run (level : Level) {P : UInt64 → Prop} (hfine : fine.level = .debug)
    (hzero : P 0) (hopen : ∀ s ∈ c.spans, level.admits s.scope = true → P s.id) {acts : List Act}
    (hids : ∀ id ∈ spanIds fine.level.admits level.admits c.lastSpan acts, P id) :
    ∀ e ∈ fine.run c acts, level.admits e.scope = true → P e.span := by
  induction acts generalizing c with
  | nil => exact nofun
  | cons act rest ih =>
    have hdebug : ∀ scope, fine.level.admits scope = true := fun _ => hfine ▸ rfl
    rw [fine.spanIds_cons c] at hids
    have hrest := ih (c := (fine.step c act).2)
    rw [run]
    cases act with
    | opens scope name =>
      rw [step_opens (hdebug scope)] at hids hrest ⊢
      obtain ⟨hfirst, hids⟩ := List.forall_mem_append.mp hids
      have hnew : level.admits scope = true → P (c.lastSpan + 1) :=
        fun hadmits => hfirst _ (by simp [hadmits])
      exact List.forall_mem_append.mpr ⟨List.forall_mem_singleton.mpr hnew,
        hrest (List.forall_mem_cons.mpr ⟨hnew, hopen⟩) hids⟩
    | closes detail extras =>
      cases hspans : c.spans with
      | nil =>
        rw [step_closes_nil hspans] at hids hrest ⊢
        exact hrest hopen hids
      | cons s outer =>
        rw [step_closes_cons hspans] at hids hrest ⊢
        rw [hspans] at hopen
        obtain ⟨hfirst, hopen⟩ := List.forall_mem_cons.mp hopen
        refine List.forall_mem_append.mpr ⟨fun e he => ?_, hrest hopen hids⟩
        split at he
        · rw [List.mem_singleton.mp he]
          exact hfirst
        · cases he
    | point scope name detail =>
      rw [step_point (hdebug scope)] at hids hrest ⊢
      exact List.forall_mem_append.mpr ⟨List.forall_mem_singleton.mpr fun _ => hzero,
        hrest hopen hids⟩

/-- What a level sees is the projection of what `debug` sees, as long as the counters of spans have
room. -/
theorem isProjection_run (hfine : fine.level = .debug) {lastSpan lastSpan' : UInt64}
    {acts : List Act} (hroom : lastSpan.toNat + acts.length < UInt64.size)
    (hroom' : lastSpan'.toNat + acts.length < UInt64.size) :
    IsProjection coarse.level coarse.caller (fine.run { lastSpan } acts)
      (coarse.run { lastSpan := lastSpan' } acts) := by
  have hdebug : ∀ scope, fine.level.admits scope = true := fun _ => hfine ▸ rfl
  -- zero, which is no number of a span, is renumbered along with the numbers of spans
  have hsorted : ∀ {last : UInt64} {ids : List UInt64}, (last :: ids).Pairwise (· < ·) →
      (0 :: ids).Pairwise (· < ·) := by
    intro last ids h
    obtain ⟨hlast, hids⟩ := List.pairwise_cons.mp h
    exact List.pairwise_cons.mpr
      ⟨fun x hx => UInt64.lt_of_le_of_lt UInt64.zero_le (hlast x hx), hids⟩
  obtain ⟨renumber, hids, hmono⟩ := exists_renumbering
    (hsorted (spanIds_sorted _ coarse.level.admits (fun scope _ => hdebug scope) hroom))
    (hsorted (spanIds_sorted _ coarse.level.admits (fun _ h => h) hroom'))
    (congrArg Nat.succ (length_spanIds fine.level.admits _ _ lastSpan lastSpan' acts))
  obtain ⟨hzero, hids⟩ := List.cons.inj hids
  have hspan := span_of_mem_run coarse.level (c := { lastSpan })
    (P := fun id => id ∈ 0 :: spanIds fine.level.admits coarse.level.admits lastSpan acts) hfine
    List.mem_cons_self nofun fun id hid => List.mem_cons_of_mem _ hid
  refine ⟨renumber, hzero, fun a ha b hb hadmits hadmits' => ?_, ?_⟩
  · exact hmono _ (hspan a ha hadmits) _ (hspan b hb hadmits')
  · exact run_eq_project hfine .nil (.start _ _) hzero hids hroom hroom'

end Observer

/-! ## Numbers of events -/

/-- The events of a log are no more than its entries. -/
theorem Observer.length_run_le (o : Observer) (c : Cursor) (acts : List Act) :
    (o.run c acts).length ≤ acts.length := by
  induction acts generalizing c with
  | nil => exact Nat.le_refl _
  | cons act rest ih =>
    have hrest := ih (o.step c act).2
    have hfirst : (o.step c act).1.toList.length ≤ 1 := by
      cases (o.step c act).1 <;> simp
    rw [run, List.length_append, List.length_cons]
    omega

/-- Each store numbers events in their order, as long as the counter has room. -/
theorem numbered_sorted {lastSeq : UInt64} {count place : Nat} {events : List Event}
    (hplace : place < count) (hroom : lastSeq.toNat + count * events.length < UInt64.size) :
    (numbered lastSeq count place events).Pairwise fun a b => a.seq < b.seq := by
  rw [List.pairwise_iff_getElem]
  intro i j hi hj hlt
  simp only [numbered, List.length_mapIdx] at hi hj
  -- all stores have numbered an event before the first of them numbers the next
  have hstep : count * i + count ≤ count * j := by
    rw [← Nat.mul_succ]
    exact Nat.mul_le_mul_left _ hlt
  have hend : count * j + count ≤ count * events.length := by
    rw [← Nat.mul_succ]
    exact Nat.mul_le_mul_left _ hj
  have hseq : ∀ {n : Nat}, n ≤ count * events.length →
      (lastSeq + UInt64.ofNat n).toNat = lastSeq.toNat + n := by
    intro n hn
    rw [UInt64.toNat_add, UInt64.toNat_ofNat_of_lt' (by omega)]
    exact Nat.mod_eq_of_lt (Nat.lt_of_le_of_lt (Nat.add_le_add_left hn _) hroom)
  simp only [numbered, List.getElem_mapIdx]
  rw [UInt64.lt_iff_toNat_lt, hseq (by omega), hseq (by omega)]
  omega

end CodeEmission.Trace
