import CodeEmission.Proofs.Progress.Rows

/-!
# Interleavings of Progress Events

Drivers of several units report to one view, and their events come in any order that keeps the order
of each unit's own events. The rows do not depend on which of these orders it is.

* `Model.filter_index?`: the events of a row are the events of one unit, or none.
* `Model.apply_of_unknown`: an event of a unit that is not listed changes nothing.
* `Model.rows_of_interleavings`: two sequences with the same events for each listed unit give the
  same rows, unknown units leave no trace, and a finished row stays as it is.
-/

namespace CodeEmission.Progress.Model

variable {m : Model}

/-- The events that belong to a row are those of the unit it names, if that unit has no later row,
and none otherwise. -/
theorem filter_index? {k : Nat} {i : Item} (hi : m.items[k]? = some i) (events : List Event) :
    (events.filter fun e => m.index? e.unit = some k) =
      if m.index? i.name = some k then events.filter fun e => e.unit = i.name else [] := by
  -- a unit whose events belong to the row has the name of the row
  have hname : ∀ unit, m.index? unit = some k → unit = i.name := by
    intro unit hunit
    obtain ⟨⟨j, hj, rfl⟩, -⟩ := index?_eq_some_iff.mp hunit
    rw [Option.some.inj (hj.symm.trans hi)]
  split
  next hrow =>
    refine List.filter_congr fun e _ => decide_eq_decide.mpr ⟨hname e.unit, ?_⟩
    intro hunit
    rw [hunit, hrow]
  next hrow =>
    refine List.filter_eq_nil_iff.mpr fun e _ => ?_
    simp only [decide_eq_true_eq]
    intro hunit
    exact hrow (hname e.unit hunit ▸ hunit)

/-- An event of a unit that no row names changes nothing. -/
theorem apply_of_unknown {e : Event} (h : e.unit ∉ m.items.map Item.name) : m.apply e = m := by
  unfold apply
  split
  next k hk =>
    obtain ⟨⟨i, hi, hname⟩, -⟩ := index?_eq_some_iff.mp hk
    exact absurd (List.mem_map.mpr ⟨i, List.mem_of_getElem? hi, hname⟩) h
  next => rfl

@[simp]
theorem names_start (title : String) (units : List String) :
    (start title units).items.map Item.name = units := by
  simp [start, Function.comp_def]

@[simp]
theorem names_foldl (m : Model) (events : List Event) :
    (events.foldl Model.apply m).items.map Item.name = m.items.map Item.name := by
  induction events generalizing m with
  | nil => rfl
  | cons e rest ih => rw [List.foldl_cons, ih, names_apply]

/-- Rows come out of the events of each unit that they name, whatever stands between these. -/
theorem items_foldl_congr {events events' : List Event}
    (h : ∀ unit ∈ m.items.map Item.name,
      (events.filter fun e => e.unit = unit) = events'.filter fun e => e.unit = unit) :
    (events.foldl Model.apply m).items = (events'.foldl Model.apply m).items := by
  refine List.ext_getElem? fun k => ?_
  rw [getElem?_items_foldl, getElem?_items_foldl]
  cases hi : m.items[k]? with
  | none => rfl
  | some i =>
    have hunit := h i.name (List.mem_map_of_mem (List.mem_of_getElem? hi))
    rw [Option.map_some, Option.map_some, filter_index? hi, filter_index? hi, hunit]

/-- A finished row stays as it is, whatever is reported later. -/
theorem getElem?_items_of_isFinished {k : Nat} {i : Item} (hi : m.items[k]? = some i)
    (hfinished : i.isFinished = true) (later : List Event) :
    (later.foldl Model.apply m).items[k]? = some i := by
  rw [getElem?_items_foldl, hi, Option.map_some, Item.foldl_apply_of_isFinished hfinished]

/-- The rows of a view that began with a list of units do not depend on how the events of the units
are mixed: two sequences that hold, for each unit of the list, the same events in the same order give
the same rows. An event of a unit that is not in the list changes nothing at any time, and a row that
shows an end shows it, with the same stage and remark, after any further events. -/
theorem rows_of_interleavings (title : String) (units : List String) :
    (∀ events events' : List Event,
      (∀ unit ∈ units,
        (events.filter fun e => e.unit = unit) = events'.filter fun e => e.unit = unit) →
      (events.foldl Model.apply (start title units)).items =
        (events'.foldl Model.apply (start title units)).items) ∧
    (∀ (events : List Event) (e : Event), e.unit ∉ units →
      (events.foldl Model.apply (start title units)).apply e =
        events.foldl Model.apply (start title units)) ∧
    ∀ (events later : List Event) (k : Nat) (i : Item),
      (events.foldl Model.apply (start title units)).items[k]? = some i →
      i.status = "done" ∨ i.status = "error" →
      ((events ++ later).foldl Model.apply (start title units)).items[k]? = some i := by
  refine ⟨fun events events' h => ?_, fun events e he => ?_, fun events later k i hi hend => ?_⟩
  · apply items_foldl_congr
    rw [names_start]
    exact h
  · apply apply_of_unknown
    rw [names_foldl, names_start]
    exact he
  · rw [List.foldl_append]
    exact getElem?_items_of_isFinished hi (by simpa [Item.isFinished] using hend) later

/-- A name that is listed twice, and a second unit between its events. -/
def mixedUnits : List String := ["a", "b", "a"]

/-- Unit `a` is done while unit `b` fails; the two are mixed, and a unit that is not listed reports
in between. -/
def mixedEvents : List Event :=
  [{ unit := "a", stage := "layout", status := .working },
    { unit := "b", stage := "mangle", status := .error },
    { unit := "elsewhere", status := .done },
    { unit := "a", status := .done, elapsed := 1500000 },
    { unit := "b", status := .done }]

/-- The same events, those of unit `b` first. -/
def sortedEvents : List Event :=
  [{ unit := "b", stage := "mangle", status := .error },
    { unit := "b", status := .done },
    { unit := "a", stage := "layout", status := .working },
    { unit := "a", status := .done, elapsed := 1500000 }]

/-- An event of the unit that has failed. -/
def lateEvent : Event :=
  { unit := "b", stage := "unwind", status := .working }

/-- Both orders end in the same rows: the first row of the repeated name is never touched, the last
is done, and the failed unit stays failed, also after a further event. -/
theorem mixed_rows :
    (∀ unit ∈ mixedUnits, (mixedEvents.filter fun e => e.unit = unit) =
      sortedEvents.filter fun e => e.unit = unit) ∧
    (mixedEvents.foldl Model.apply (start "emit" mixedUnits)).items =
      (sortedEvents.foldl Model.apply (start "emit" mixedUnits)).items ∧
    (sortedEvents.foldl Model.apply (start "emit" mixedUnits)).items =
      [{ name := "a" }, { name := "b", status := "error", detail := "in mangle" },
        { name := "a", status := "done", stage := "layout", detail := "1.5ms" }] ∧
    "elsewhere" ∉ mixedUnits ∧
    (mixedEvents.foldl Model.apply (start "emit" mixedUnits)).apply
        { unit := "elsewhere", status := .error } =
      mixedEvents.foldl Model.apply (start "emit" mixedUnits) ∧
    ((mixedEvents ++ [lateEvent]).foldl Model.apply (start "emit" mixedUnits)).items[1]? =
      some { name := "b", status := "error", detail := "in mangle" } := by
  have hsame : ∀ unit ∈ mixedUnits, (mixedEvents.filter fun e => e.unit = unit) =
      sortedEvents.filter fun e => e.unit = unit := by decide
  have hunknown : "elsewhere" ∉ mixedUnits := by decide
  have hfailed : (mixedEvents.foldl Model.apply (start "emit" mixedUnits)).items[1]? =
      some { name := "b", status := "error", detail := "in mangle" } := by decide +kernel
  obtain ⟨hrows, hother, hstays⟩ := rows_of_interleavings "emit" mixedUnits
  exact ⟨hsame, hrows _ _ hsame, by decide +kernel, hunknown,
    hother mixedEvents { unit := "elsewhere", status := .error } hunknown,
    hstays mixedEvents [lateEvent] 1 _ hfailed (.inr rfl)⟩

end CodeEmission.Progress.Model
