import CodeEmission.Text.Hex
import CodeEmission.Toml.Quoted

/-!
# TOML Numbers, Dates and Times

The literals that start with a digit or a sign. An integer has 64 bits; underscores may stand
between digits, and a decimal one has no leading zeros. A float is accepted when it is within the
range of doubles. A date or time is accepted when it exists.
-/

namespace CodeEmission.Toml

/-- Whether the underscores of a number each follow a digit, and the number ends in one. -/
def underscoresFit : Bool → List Char → Bool
  | afterDigit, [] => afterDigit
  | afterDigit, c :: rest =>
    if c == '_' && !afterDigit then false
    else underscoresFit (Text.hexValue? c).isSome rest

/-- The number that digits stand for; underscores are passed over. -/
def digitsValue (base : Nat) (digits : List Char) : Nat :=
  digits.foldl (fun n c => if c == '_' then n else base * n + (Text.hexValue? c).getD 0) 0

/-- An integer, if it has 64 bits. -/
def int64? (n : Int) : Option Int64 :=
  if Int64.minValue.toInt ≤ n ∧ n ≤ Int64.maxValue.toInt then some (Int64.ofInt n) else none

/-- Whether a number starts with a zero that is not its only digit. -/
def leadingZero (digits : List Char) : Bool :=
  digits.head? == some '0' && digits.length > 1

/-- The integer of a base other than ten that starts with a digit of that base. -/
def baseInteger (base : Nat) : Reader Int64 := fun cs =>
  let isDigit (c : Char) : Bool := (Text.hexValue? c).any (· < base)
  let digits := cs.takeWhile fun c => isDigit c || c == '_'
  if (cs.head?.any isDigit) && underscoresFit false digits then
    (int64? (digitsValue base digits)).map fun n => (n, cs.drop digits.length)
  else none

/-- The digits of a decimal integer with its sign. -/
def decimalInteger? (negative : Bool) (digits : List Char) : Option Int64 :=
  if underscoresFit false digits && !leadingZero digits then
    let n := digitsValue 10 digits
    int64? (if negative then -(n : Int) else n)
  else none

/-- The digits of a float: before the point, after it, and the exponent with its sign. -/
structure FloatParts where
  /-- Digits before the point. -/
  whole : List Char
  /-- Digits after the point. -/
  fraction : List Char := []
  /-- Whether the exponent is negative. -/
  smaller : Bool := false
  /-- Digits of the exponent. -/
  exponent : List Char := []

/-- A digit or an underscore. -/
def isNumeral (c : Char) : Bool :=
  c.isDigit || c == '_'

/-- The exponent of a float, if there is one. -/
def exponentOf? (p : FloatParts) : List Char → Option FloatParts
  | [] => some p
  | c :: rest =>
    if c == 'e' || c == 'E' then
      let (smaller, digits) := match rest with
        | '+' :: digits => (false, digits)
        | '-' :: digits => (true, digits)
        | digits => (false, digits)
      if digits.all isNumeral && underscoresFit false digits then
        some { p with smaller, exponent := digits }
      else none
    else none

/-- The parts of an unsigned float. Each part has digits, with underscores only between them. -/
def floatParts? (cs : List Char) : Option FloatParts :=
  let whole := cs.takeWhile isNumeral
  if !underscoresFit false whole || leadingZero whole then none
  else match cs.drop whole.length with
    | '.' :: rest =>
      let fraction := rest.takeWhile isNumeral
      if fraction.head?.any Char.isDigit && underscoresFit false fraction then
        exponentOf? { whole, fraction } (rest.drop fraction.length)
      else none
    | rest => exponentOf? { whole } rest

/-- The least number that is nearer to infinity than to the greatest double. -/
def doubleLimit : Nat := Nat.pow 2 1024 - Nat.pow 2 970

/-- Whether a float is within the range of doubles. -/
def FloatParts.inRange (p : FloatParts) : Bool :=
  let fraction := p.fraction.filter (· != '_')
  let m := digitsValue 10 (p.whole ++ fraction)
  let e := digitsValue 10 p.exponent
  let scale : Int := (if p.smaller then -(e : Int) else e) - fraction.length
  let size : Int := (Nat.repr m).length + scale
  if m = 0 || size < 308 then true
  else if size > 310 then false
  else if 0 ≤ scale then m * Nat.pow 10 scale.toNat < doubleLimit
  else m < doubleLimit * Nat.pow 10 (-scale).toNat

/-- Whether an unsigned float is one that can be read. -/
def isFloat (cs : List Char) : Bool :=
  (floatParts? cs).any FloatParts.inRange

/-- Two digits as a number. -/
def twoDigits? : List Char → Option (Nat × List Char)
  | a :: b :: rest =>
    if a.isDigit && b.isDigit then some (digitsValue 10 [a, b], rest) else none
  | _ => none

/-- Whether a year has a leap day. -/
def isLeapYear (y : Nat) : Bool :=
  y % 4 == 0 && (y % 100 != 0 || y % 400 == 0)

/-- How many days a month has. -/
def daysIn (year month : Nat) : Nat :=
  if month == 2 then (if isLeapYear year then 29 else 28)
  else if month == 4 || month == 6 || month == 9 || month == 11 then 30
  else 31

/-- A calendar date at the front of a text; the rest after it. -/
def dateRest? : List Char → Option (List Char)
  | a :: b :: c :: d :: '-' :: rest => do
    if !([a, b, c, d].all Char.isDigit) then none
    let (month, rest) ← twoDigits? rest
    let rest ← match rest with
      | '-' :: rest => some rest
      | _ => none
    let (day, rest) ← twoDigits? rest
    if 1 ≤ month && month ≤ 12 && 1 ≤ day && day ≤ daysIn (digitsValue 10 [a, b, c, d]) month then
      some rest
    else none
  | _ => none

/-- An hour, which may have one digit only. -/
def hour? : List Char → Option (Nat × List Char)
  | a :: b :: rest =>
    if !a.isDigit then none
    else if b.isDigit then some (digitsValue 10 [a, b], rest)
    else some (digitsValue 10 [a], b :: rest)
  | _ => none

/-- A colon and two digits below sixty. -/
def sixtieth? : List Char → Option (List Char)
  | ':' :: rest => (twoDigits? rest).bind fun (n, rest) => if n < 60 then some rest else none
  | _ => none

/-- A time of day at the front of a text; the rest after it. -/
def timeRest? (cs : List Char) : Option (List Char) := do
  let (hour, rest) ← hour? cs
  if 24 ≤ hour then none
  let rest ← sixtieth? rest
  let rest ← sixtieth? rest
  match rest with
  | '.' :: c :: more =>
    if c.isDigit then some (more.dropWhile Char.isDigit) else some rest
  | _ => some rest

/-- Whether a text is an offset from universal time, or nothing at all. -/
def isOffset : List Char → Bool
  | [] => true
  | ['Z'] => true
  | sign :: rest =>
    (sign == '+' || sign == '-') &&
      match twoDigits? rest with
      | some (hours, ':' :: rest) =>
        hours ≤ 24 && (twoDigits? rest).any fun (minutes, rest) => minutes ≤ 60 && rest.isEmpty
      | _ => false

/-- Whether a text is a date, a time of day, or both, the latter with or without an offset. -/
def isMoment (cs : List Char) : Bool :=
  match dateRest? cs with
  | some [] => true
  | some ('T' :: rest) => (timeRest? rest).any isOffset
  | some _ => false
  | none => (timeRest? cs).any List.isEmpty

/-- The characters of dates and times. -/
def isMomentChar (c : Char) : Bool :=
  c.isDigit || c == '-' || c == ':' || c == 'T' || c == 't' || c == ' ' || c == '.' ||
    c == 'Z' || c == 'z' || c == '+'

/-- The usual form of a date or time: capital letters, and a `T` between date and time. -/
def momentForm (cs : List Char) : List Char :=
  (cs.reverse.dropWhile (· == ' ')).reverse.map fun c =>
    if c == 't' || c == ' ' then 'T' else if c == 'z' then 'Z' else c

/-- The characters of floats. -/
def isFloatChar (c : Char) : Bool :=
  isNumeral c || c == '.' || c == '-' || c == '+' || c == 'e' || c == 'E'

end CodeEmission.Toml
