import CodeEmission.Text.Decimal

/-!
# Durations

Lengths of time in nanoseconds and their text. A duration under a second is written in the largest
unit that keeps the whole part positive (`1.5ms`, `2µs`); from a second on it is written in hours,
minutes and seconds (`1h2m3.004s`), with the units above the first one never left out. Trailing
zeros of a fraction are dropped. `roundToMicros` rounds to whole microseconds, a half away from
zero.
-/

namespace CodeEmission.Text

/-- The fraction of a number of units, with its point and without trailing zeros. -/
def fractionText (places value : Nat) : String :=
  let digits := (List.leftpad places '0' (Nat.repr value).toList)
  let kept := (digits.reverse.dropWhile (· == '0')).reverse
  if kept.isEmpty then "" else String.ofList ('.' :: kept)

/-- The text of a duration in nanoseconds. -/
def durationText (ns : Int) : String :=
  let n := ns.natAbs
  let body :=
    if n = 0 then "0s"
    else if n < 1000 then Nat.repr n ++ "ns"
    else if n < 1000000 then Nat.repr (n / 1000) ++ fractionText 3 (n % 1000) ++ "µs"
    else if n < 1000000000 then Nat.repr (n / 1000000) ++ fractionText 6 (n % 1000000) ++ "ms"
    else
      let seconds := n / 1000000000
      let tail := Nat.repr (seconds % 60) ++ fractionText 9 (n % 1000000000) ++ "s"
      if seconds < 60 then tail
      else if seconds < 3600 then Nat.repr (seconds / 60) ++ "m" ++ tail
      else Nat.repr (seconds / 3600) ++ "h" ++ Nat.repr (seconds / 60 % 60) ++ "m" ++ tail
  if ns < 0 then "-" ++ body else body

/-- The longest duration, in nanoseconds. -/
def longestDuration : Int := Int64.maxValue.toInt

/-- A positive duration in nanoseconds, rounded to whole microseconds. A half goes up, and a result
past the longest duration is the longest one. -/
def roundToMicros (ns : Nat) : Int :=
  let rest := ns % 1000
  if rest + rest < 1000 then ((ns - rest : Nat) : Int)
  else if ((ns - rest + 1000 : Nat) : Int) ≤ longestDuration then ((ns - rest + 1000 : Nat) : Int)
  else longestDuration

end CodeEmission.Text
