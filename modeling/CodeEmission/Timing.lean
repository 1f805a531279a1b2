import CodeEmission.Text.Decimal

/-!
# Timing

A timer holds the phases of a run with their durations. Its report gives durations in milliseconds
and prints them as an aligned table.

Durations are 64-bit nanosecond counts and their sums wrap.
-/

namespace CodeEmission.Timing

/-- A timed interval, such as a stage. -/
structure Phase where
  /-- What was timed. -/
  name : String
  /-- How long it took, in nanoseconds; zero while it is going on. -/
  duration : Int64 := 0
  /-- A remark. -/
  note : String := ""
  deriving DecidableEq, Repr, Inhabited

/-- The phases of a run, in the order in which they began. -/
structure Timer where
  /-- The phases. -/
  phases : List Phase := []
  deriving DecidableEq, Repr, Inhabited

/-- The reported form of a phase. -/
structure PhaseReport where
  /-- What was timed. -/
  name : String
  /-- How long it took. -/
  millis : Float
  /-- A remark. -/
  note : String := ""
  deriving Repr, Inhabited

/-- The reported form of a timer. -/
structure Report where
  /-- The sum of all durations. -/
  totalMillis : Float := 0
  /-- The phases. -/
  phases : List PhaseReport := []
  deriving Repr, Inhabited

/-- Nanoseconds in milliseconds. -/
def toMillis (ns : Int64) : Float :=
  ns.toFloat / 1000000

namespace Timer

/-- Begin a phase. Its index is the number of phases before it. -/
def start (t : Timer) (name : String) : Nat × Timer :=
  (t.phases.length, { phases := t.phases ++ [{ name }] })

/-- End the phase at an index. An index without a phase changes nothing. -/
def finish (t : Timer) (index : Nat) (note : String) (duration : Int64) : Timer :=
  { phases := t.phases.modify index fun p => { p with duration, note } }

/-- The sum of the durations of all phases of a name. -/
def duration (t : Timer) (name : String) : Int64 :=
  ((t.phases.filter fun p => p.name = name).map Phase.duration).foldl (· + ·) 0

/-- The report of a timer. -/
def report (t : Timer) : Report :=
  { totalMillis := toMillis ((t.phases.map Phase.duration).foldl (· + ·) 0)
    phases := t.phases.map fun p =>
      { name := p.name, millis := toMillis p.duration, note := p.note } }

end Timer

/-- Durations have two places and take at least seven characters. -/
def millisFormat : Text.FixedFormat := { places := 2, width := 7 }

/-- One row of the table. -/
def row (name : String) (millis : Float) : String :=
  "  " ++ Text.padRight 20 name ++ " " ++ millisFormat.render millis ++ " ms"

namespace Report

/-- The report as a table with a row for each phase and one for the sum. -/
def summary (r : Report) : String :=
  "timings:\n" ++
    String.join (r.phases.map fun p =>
      row p.name p.millis ++ (if p.note = "" then "" else "  // " ++ p.note) ++ "\n") ++
    row "total" r.totalMillis ++ "\n"

/-- The table of a unit; nothing when no phase was timed. -/
def unitSummary (unit : String) (r : Report) : String :=
  if r.phases.isEmpty then "" else "unit " ++ unit ++ " " ++ r.summary

end Report

end CodeEmission.Timing
