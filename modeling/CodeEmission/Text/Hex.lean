/-!
# Hexadecimal Text

Digits, bytes and fixed-width numbers in base sixteen. Digits are written in lower case and read in
either case. `ofHexDigits?` reads a byte list, two digits a byte, and is the inverse of `hexBytes`.
-/

namespace CodeEmission.Text

/-- The lower-case digit for a number below sixteen. -/
def hexDigit (n : Nat) : Char :=
  if n < 10 then Char.ofNat (48 + n) else Char.ofNat (87 + n)

/-- The value of a hexadecimal digit in either case. -/
def hexValue? (c : Char) : Option Nat :=
  if '0' ≤ c ∧ c ≤ '9' then some (c.toNat - 48)
  else if 'a' ≤ c ∧ c ≤ 'f' then some (c.toNat - 87)
  else if 'A' ≤ c ∧ c ≤ 'F' then some (c.toNat - 55)
  else none

/-- The lowest `width` hexadecimal digits of a number. -/
def hexFixed : Nat → Nat → List Char
  | 0, _ => []
  | width + 1, n => hexFixed width (n / 16) ++ [hexDigit (n % 16)]

/-- A byte as two digits. -/
def hexByte (b : UInt8) : List Char :=
  hexFixed 2 b.toNat

/-- Bytes as text, two digits each. -/
def hexBytes (bytes : List UInt8) : String :=
  String.ofList (bytes.flatMap hexByte)

/-- Read pairs of digits as bytes; an odd digit or another character is refused. -/
def ofHexDigits? : List Char → Option (List UInt8)
  | [] => some []
  | [_] => none
  | a :: b :: rest => do
    let hi ← hexValue? a
    let lo ← hexValue? b
    let bytes ← ofHexDigits? rest
    return UInt8.ofNat (hi * 16 + lo) :: bytes

end CodeEmission.Text
