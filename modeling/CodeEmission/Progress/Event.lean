/-!
# Progress Events

What a driver tells about a unit while it works on it.
-/

namespace CodeEmission.Progress

/-- How far a stage or a unit is. `other` is a word that no driver uses. -/
inductive Status where
  | queued | working | done | error
  | other (text : String)
  deriving DecidableEq, Repr, Inhabited

namespace Status

/-- The status that a word stands for. -/
def ofText : String → Status
  | "queued" => queued
  | "working" => working
  | "done" => done
  | "error" => error
  | s => other s

/-- The word for a status. -/
def text : Status → String
  | queued => "queued"
  | working => "working"
  | done => "done"
  | error => "error"
  | other s => s

/-- A status is read back from its word. -/
theorem text_ofText (s : String) : (ofText s).text = s := by
  unfold ofText
  split <;> rfl

end Status

/-- A report on a unit. -/
structure Event where
  /-- The unit. -/
  unit : String
  /-- The stage; empty for the unit as a whole. -/
  stage : String := ""
  /-- How far it is. -/
  status : Status
  /-- The text of the failure, if it failed. -/
  failure? : Option String := none
  /-- How long it took, in nanoseconds. -/
  elapsed : Int := 0
  deriving DecidableEq, Repr, Inhabited

end CodeEmission.Progress
