import CodeEmission.Text.Decimal

/-!
# Timestamps

A time is a number of nanoseconds since the first of January 1970, in universal time. It is written
as a calendar date and a time of day with microseconds; what is below a microsecond is cut off.

The calendar is computed in eras of 400 years, which all have the same number of days, with years
that begin in March so that a leap day comes last.
-/

namespace CodeEmission.Trace

/-- A day of the calendar. -/
structure CivilDate where
  /-- The year. -/
  year : Int
  /-- The month, from one. -/
  month : Nat
  /-- The day of the month, from one. -/
  day : Nat
  deriving DecidableEq, Repr

/-- The date that lies a number of days after the first of January 1970. -/
def CivilDate.ofDays (days : Int) : CivilDate :=
  let shifted := days + 719468
  let era := shifted.fdiv 146097
  let dayOfEra := (shifted.fmod 146097).toNat
  let yearOfEra := (dayOfEra - dayOfEra / 1460 + dayOfEra / 36524 - dayOfEra / 146096) / 365
  let dayOfYear := dayOfEra - (365 * yearOfEra + yearOfEra / 4 - yearOfEra / 100)
  let monthFromMarch := (5 * dayOfYear + 2) / 153
  let day := dayOfYear - (153 * monthFromMarch + 2) / 5 + 1
  let month := if monthFromMarch < 10 then monthFromMarch + 3 else monthFromMarch - 9
  let year := (yearOfEra : Int) + era * 400
  { year := if month ≤ 2 then year + 1 else year, month, day }

/-- A number filled with zeros on the left. -/
def zeroPadded (width n : Nat) : String :=
  String.ofList (List.leftpad width '0' (Nat.repr n).toList)

/-- A time in the form `1970-01-01T00:00:00.000000Z`. -/
def timestamp (ns : Int) : String :=
  let micros := ns.fdiv 1000
  let seconds := micros.fdiv 1000000
  let date := CivilDate.ofDays (seconds.fdiv 86400)
  let second := (seconds.fmod 86400).toNat
  zeroPadded 4 date.year.toNat ++ "-" ++ zeroPadded 2 date.month ++ "-" ++
    zeroPadded 2 date.day ++ "T" ++ zeroPadded 2 (second / 3600) ++ ":" ++
    zeroPadded 2 (second / 60 % 60) ++ ":" ++ zeroPadded 2 (second % 60) ++ "." ++
    zeroPadded 6 (micros.fmod 1000000).toNat ++ "Z"

end CodeEmission.Trace
