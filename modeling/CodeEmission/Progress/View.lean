import CodeEmission.Progress.Event
import CodeEmission.Text.Decimal
import CodeEmission.Text.Duration
import CodeEmission.Text.Terminal

/-!
# The Progress View

A model of the units of a run, fed by the events of their drivers, and its text on a terminal: a
title, a row for each unit and a bar.

A unit is finished by an event that reports its end as a whole or a failure; after that nothing
changes it. Events of units that the model does not know are ignored. When a name is listed more
than once, its events belong to the last of its rows.
-/

namespace CodeEmission.Progress

/-- A row of the view. -/
structure Item where
  /-- The unit. -/
  name : String
  /-- What is shown for it. -/
  status : String := "queued"
  /-- The stage that is or was last at work. -/
  stage : String := ""
  /-- A remark in parentheses. -/
  detail : String := ""
  deriving DecidableEq, Repr, Inhabited

/-- The stages that the view knows, in order, and what is shown while they are at work. -/
def stageLabels : List (String × String) :=
  [("legalize", "legalizing"), ("mangle", "mangling"), ("layout", "laying out"),
    ("unwind", "unwinding")]

/-- What is shown while a stage is at work. -/
def stageLabel (stage : String) : String :=
  (stageLabels.lookup stage).getD "working"

/-- The part of a unit's work that is done when a stage is at work. The last part is the writing. -/
def stageShare (stage : String) : Float :=
  match stageLabels.findIdx? fun s => s.1 = stage with
  | some i => (i + 1).toFloat / (stageLabels.length + 1).toFloat
  | none => 0

namespace Item

/-- Whether nothing can change the row any more. -/
def isFinished (i : Item) : Bool :=
  i.status = "done" || i.status = "error"

/-- The part of the unit's work that is done. -/
def share (i : Item) : Float :=
  if i.isFinished then 1 else stageShare i.stage

/-- The row after an event of its unit. -/
def apply (i : Item) (e : Event) : Item :=
  if i.isFinished then i
  else match e.status with
    | .error =>
      { i with
        status := "error"
        detail := if e.stage = "" then i.detail else "in " ++ e.stage }
    | .done =>
      if e.stage = "" then
        { i with
          status := "done"
          detail := if 0 < e.elapsed
            then Text.durationText (Text.roundToMicros e.elapsed.toNat) else i.detail }
      else i
    | .working => { i with status := stageLabel e.stage, stage := e.stage }
    | .queued | .other _ => i

end Item

/-- The state of the view. -/
structure Model where
  /-- What the run does. -/
  title : String
  /-- The rows. -/
  items : List Item
  /-- The width of the terminal. -/
  width : Int := 80
  /-- The width of the bar. -/
  barWidth : Int := 76
  /-- How far the spinner has turned. -/
  turns : Nat := 0
  /-- Whether the run is over. -/
  done : Bool := false
  deriving DecidableEq, Repr, Inhabited

namespace Model

/-- The view of a run that has not begun. -/
def start (title : String) (units : List String) : Model :=
  { title, items := units.map fun name => { name } }

/-- The row that events of a unit belong to. -/
def index? (m : Model) (unit : String) : Option Nat :=
  (m.items.reverse.findIdx? fun i => i.name = unit).map fun k => m.items.length - 1 - k

/-- The view after an event. -/
def apply (m : Model) (e : Event) : Model :=
  match m.index? e.unit with
  | some k => { m with items := m.items.modify k (·.apply e) }
  | none => m

/-- The view after the end of the run. -/
def finish (m : Model) : Model :=
  { m with done := true }

/-- The view after a change of the terminal's width. Only a positive width changes anything. -/
def resize (m : Model) (width : Int) : Model :=
  if 0 < width then { m with width, barWidth := width - 4 } else m

/-- The view after a turn of the spinner, which stands still when the run is over. -/
def tick (m : Model) : Model :=
  if m.done then m else { m with turns := m.turns + 1 }

/-- The part of the whole work that is done. -/
def fraction (m : Model) : Float :=
  if m.items.isEmpty then 0
  else (m.items.map Item.share).foldl (· + ·) 0 / m.items.length.toFloat

/-- The shapes of the spinner. -/
def spinnerShapes : List String := ["⣾", "⣽", "⣻", "⢿", "⡿", "⣟", "⣯", "⣷"]

/-- The spinner. -/
def spinner (m : Model) : String :=
  (spinnerShapes[m.turns % spinnerShapes.length]?).getD "" ++ " "

/-- The bar, with the part that is done and the part in percent. It is drawn at its ends only. -/
def bar (m : Model) : String :=
  let label := if m.done then " 100%" else "   0%"
  let cell := if m.done then '█' else '░'
  String.ofList (List.replicate (m.barWidth - label.length).toNat cell) ++ label

/-- A row. -/
def row (m : Model) (i : Item) : String :=
  "  " ++ Text.padLeft 12 i.status ++ " " ++ Text.truncate (max (m.width - 16) 20) i.name ++
    (if i.detail = "" then "" else " " ++ Text.block ("(" ++ i.detail ++ ")")) ++ "\n"

/-- The text of the view. Without units there is nothing to show. -/
def view (m : Model) : String :=
  if m.items.isEmpty then ""
  else
    Text.block (if m.done then "done: " ++ m.title else m.spinner ++ " " ++ m.title) ++ "\n\n" ++
      String.join (m.items.map m.row) ++ "\n" ++ m.bar ++ "\n"

end Model

end CodeEmission.Progress
