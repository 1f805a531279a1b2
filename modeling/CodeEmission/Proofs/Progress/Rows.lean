import CodeEmission.Progress.View

/-!
# The Rows of the Progress View

How the rows of the view come out of a sequence of events. An event *ends* its unit if it reports a
failure or the end of the unit as a whole.

* `Item.verdict?_foldl`: what a row shows in the end is decided by the first event that ends its
  unit.
* `Model.getElem?_items_foldl`: a row changes by the events that belong to it, and by no others,
  however the events of several units are mixed.
* `Model.index?_eq_some_iff`: the events of a unit belong to the last row of its name.
-/

namespace CodeEmission.Progress

/-- Whether an event ends its unit. -/
def Event.ends (e : Event) : Bool :=
  e.status = .error || (e.status = .done && e.stage = "")

/-- What is shown for a unit after an event that ended it. -/
def Event.verdict (e : Event) : String :=
  if e.status = .error then "error" else "done"

/-- No stage at work is shown as an end. -/
theorem stageLabel_not_final (stage : String) :
    stageLabel stage ≠ "done" ∧ stageLabel stage ≠ "error" := by
  unfold stageLabel stageLabels
  simp only [List.lookup_cons, List.lookup_nil]
  repeat' split
  all_goals decide

namespace Item

variable {i : Item} {e : Event}

/-- What a row shows for the end of its unit, once that has come. -/
def verdict? (i : Item) : Option String :=
  if i.isFinished then some i.status else none

theorem isFinished_of_verdict? {verdict : String} (h : i.verdict? = some verdict) :
    i.isFinished = true := by
  unfold verdict? at h
  split at h
  next hfinished => exact hfinished
  next => cases h

@[simp]
theorem name_apply (i : Item) (e : Event) : (i.apply e).name = i.name := by
  unfold apply
  repeat' split
  all_goals rfl

/-! ## One event -/

/-- A finished row stays as it is. -/
theorem apply_of_isFinished (hi : i.isFinished = true) (e : Event) : i.apply e = i := by
  rw [apply, if_pos hi]

/-- An event that ends the unit finishes the row. -/
theorem verdict?_apply_of_ends (hi : i.isFinished = false) (he : e.ends = true) :
    (i.apply e).verdict? = some e.verdict := by
  rw [apply, if_neg (by simp [hi])]
  cases hstatus : e.status with
  | error => simp [verdict?, isFinished, Event.verdict, hstatus]
  | done =>
    have hstage : e.stage = "" := by simpa [Event.ends, hstatus] using he
    simp [verdict?, isFinished, Event.verdict, hstatus, hstage]
  | queued | working | other text => simp [Event.ends, hstatus] at he

/-- Any other event leaves the row open. -/
theorem isFinished_apply_of_not_ends (hi : i.isFinished = false) (he : e.ends = false) :
    (i.apply e).isFinished = false := by
  rw [apply, if_neg (by simp [hi])]
  cases hstatus : e.status with
  | error => simp [Event.ends, hstatus] at he
  | done =>
    have hstage : e.stage ≠ "" := by simpa [Event.ends, hstatus] using he
    simpa [hstage] using hi
  | working => simp [isFinished, stageLabel_not_final]
  | queued | other text => exact hi

/-! ## All events of a unit -/

theorem foldl_apply_of_isFinished (hi : i.isFinished = true) (events : List Event) :
    events.foldl apply i = i := by
  induction events with
  | nil => rfl
  | cons e rest ih => rw [List.foldl_cons, apply_of_isFinished hi, ih]

@[simp]
theorem name_foldl (i : Item) (events : List Event) : (events.foldl apply i).name = i.name := by
  induction events generalizing i with
  | nil => rfl
  | cons e rest ih => rw [List.foldl_cons, ih, name_apply]

/-- The first event that ends a unit decides what is shown for it. -/
theorem verdict?_foldl (hi : i.isFinished = false) (events : List Event) :
    (events.foldl apply i).verdict? = (events.find? Event.ends).map Event.verdict := by
  -- the row is open up to that event and stays as it is from there on
  induction events generalizing i with
  | nil => simp [verdict?, hi]
  | cons e rest ih =>
    rw [List.foldl_cons]
    by_cases he : e.ends = true
    · have hverdict := verdict?_apply_of_ends hi he
      have hfinished := isFinished_of_verdict? hverdict
      rw [foldl_apply_of_isFinished hfinished, hverdict, List.find?_cons_of_pos he, Option.map_some]
    · have he := Bool.eq_false_iff.mpr he
      rw [ih (isFinished_apply_of_not_ends hi he), List.find?_cons_of_neg (by simp [he])]

end Item

namespace Model

variable {m : Model}

/-! ## Rows and units -/

/-- The events of a unit belong to the last row of its name. -/
theorem index?_eq_some_iff {unit : String} {k : Nat} :
    m.index? unit = some k ↔
      (∃ i, m.items[k]? = some i ∧ i.name = unit) ∧
        ∀ j i, k < j → m.items[j]? = some i → i.name ≠ unit := by
  rw [index?, Option.map_eq_some_iff]
  constructor
  · rintro ⟨back, hback, rfl⟩
    -- the search runs from the last row to the first
    obtain ⟨hlt, hname, hbefore⟩ := List.findIdx?_eq_some_iff_getElem.mp hback
    rw [List.length_reverse] at hlt
    refine ⟨⟨m.items[m.items.length - 1 - back], ?_, ?_⟩, ?_⟩
    · exact List.getElem?_eq_getElem _
    · simpa [List.getElem_reverse] using hname
    · intro j i hj hi
      obtain ⟨hjlt, rfl⟩ := List.getElem?_eq_some_iff.mp hi
      have hnot := hbefore (m.items.length - 1 - j) (by omega)
      have hsame : m.items.length - 1 - (m.items.length - 1 - j) = j := by omega
      simpa [List.getElem_reverse, hsame] using hnot
  · rintro ⟨⟨i, hi, hname⟩, hlast⟩
    obtain ⟨hlt, rfl⟩ := List.getElem?_eq_some_iff.mp hi
    refine ⟨m.items.length - 1 - k, ?_, by omega⟩
    have hsame : m.items.length - 1 - (m.items.length - 1 - k) = k := by omega
    refine List.findIdx?_eq_some_iff_getElem.mpr ⟨by rw [List.length_reverse]; omega, ?_, ?_⟩
    · simpa [List.getElem_reverse, hsame] using hname
    · intro back hback
      have hnot := hlast (m.items.length - 1 - back) _ (by omega)
        (List.getElem?_eq_getElem (by omega))
      simpa [List.getElem_reverse] using hnot

/-- Which row a unit has depends on the names of the rows alone. -/
theorem index?_eq_of_names {m m' : Model} (h : m.items.map Item.name = m'.items.map Item.name)
    (unit : String) : m.index? unit = m'.index? unit := by
  have hnames (m : Model) : m.index? unit =
      ((m.items.map Item.name).reverse.findIdx? (· = unit)).map
        fun back => (m.items.map Item.name).length - 1 - back := by
    rw [index?, ← List.map_reverse, List.findIdx?_map, List.length_map]
    rfl
  rw [hnames m, hnames m', h]

/-- An event changes the row that it belongs to and no other. -/
theorem getElem?_items_apply (m : Model) (e : Event) (k : Nat) :
    (m.apply e).items[k]? =
      m.items[k]?.map fun i => if m.index? e.unit = some k then i.apply e else i := by
  unfold apply
  cases hindex : m.index? e.unit with
  | none => simp
  | some j => simp [List.getElem?_modify]

@[simp]
theorem names_apply (m : Model) (e : Event) :
    (m.apply e).items.map Item.name = m.items.map Item.name := by
  refine List.ext_getElem? fun k => ?_
  rw [List.getElem?_map, List.getElem?_map, getElem?_items_apply, Option.map_map]
  refine congrArg (Option.map · m.items[k]?) (funext fun i => ?_)
  show (if _ then i.apply e else i).name = i.name
  split
  · exact i.name_apply e
  · rfl

/-- A row comes out of the events that belong to it, in their order. -/
theorem getElem?_items_foldl (m : Model) (events : List Event) (k : Nat) :
    (events.foldl Model.apply m).items[k]? = m.items[k]?.map fun i =>
      (events.filter fun e => m.index? e.unit = some k).foldl Item.apply i := by
  induction events generalizing m with
  | nil => simp
  | cons e rest ih =>
    have hrows : (m.apply e).index? = m.index? := funext (index?_eq_of_names (names_apply m e))
    rw [List.foldl_cons, ih, getElem?_items_apply, hrows, Option.map_map]
    refine congrArg (Option.map · m.items[k]?) (funext fun i => ?_)
    by_cases hindex : m.index? e.unit = some k
    · simp [hindex]
    · simp [hindex]

end Model

end CodeEmission.Progress
