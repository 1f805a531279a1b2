/-!
# Decimal Text

Integers in base ten, and doubles with a fixed number of decimal places. A double is an integer
times a power of two, so its decimal form with a given number of places is a quotient of integers
rounded once: to the nearest, and a tie to the even neighbour. `roundHalfEven` is that rounding and
`FixedFormat` says how the digits are laid out.
-/

namespace CodeEmission.Text

/-- A signed integer in base ten. -/
def ofInt (n : Int) : String :=
  match n with
  | .ofNat n => Nat.repr n
  | .negSucc n => "-" ++ Nat.repr (n + 1)

/-- A 64-bit integer in base ten. -/
def ofInt64 (n : Int64) : String :=
  ofInt n.toInt

/-- A text filled with spaces on the left until it has `width` characters. -/
def padLeft (width : Nat) (s : String) : String :=
  String.ofList (List.leftpad width ' ' s.toList)

/-- A text filled with spaces on the right until it has `width` characters. -/
def padRight (width : Nat) (s : String) : String :=
  String.ofList (List.rightpad width ' ' s.toList)

/-- The quotient of two numbers, rounded to the nearest integer and a tie to the even one. -/
def roundHalfEven (num den : Nat) : Nat :=
  let q := num / den
  let twice := 2 * (num % den)
  if twice < den then q
  else if den < twice then q + 1
  else if q % 2 = 0 then q else q + 1

/-- A non-negative number of `10 ^ -places` units, with a point before the last `places` digits. -/
def withPoint (places units : Nat) : String :=
  let digits := (Nat.repr units).toList
  let digits := List.leftpad (places + 1) '0' digits
  let whole := digits.take (digits.length - places)
  let frac := digits.drop (digits.length - places)
  if places = 0 then String.ofList whole
  else String.ofList (whole ++ '.' :: frac)

/-- How a double is written with a fixed number of places. -/
structure FixedFormat where
  /-- Digits after the point. -/
  places : Nat
  /-- The least number of characters; shorter texts are filled on the left. -/
  width : Nat

/-- A double as a sign, an odd or even integer and a power of two, or nothing when it is no
finite number. -/
def binaryParts? (x : Float) : Option (Bool × Nat × Int) :=
  let bits := x.toBits.toNat
  let negative := bits / Nat.pow 2 63 = 1
  let exponent : Nat := bits / Nat.pow 2 52 % Nat.pow 2 11
  let fraction : Nat := bits % Nat.pow 2 52
  if exponent = 2047 then none
  else if exponent = 0 then some (negative, fraction, -1074)
  else some (negative, Nat.pow 2 52 + fraction, (exponent : Int) - 1075)

/-- A double with a fixed number of places. -/
def FixedFormat.render (f : FixedFormat) (x : Float) : String :=
  match binaryParts? x with
  | none => padLeft f.width (if x != x then "NaN" else if x < 0 then "-Inf" else "+Inf")
  | some (negative, m, e) =>
    let num := m * Nat.pow 10 f.places * Nat.pow 2 e.toNat
    let den := Nat.pow 2 (-e).toNat
    let body := withPoint f.places (roundHalfEven num den)
    padLeft f.width (if negative then "-" ++ body else body)

end CodeEmission.Text
