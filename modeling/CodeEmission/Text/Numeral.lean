import CodeEmission.Text.Hex

/-!
# Integers of the Command Line

An integer in a flag has an optional sign and is written in base ten, or in another base after one
of the marks `0x`, `0o`, `0b` and `0`. Underscores may stand between digits and after the mark.

A number that is too large is told from a text that is no number, and that is decided at the first
digit that shows it: what follows that digit does not matter.
-/

namespace CodeEmission.Text

/-- Why a text is no integer of 64 bits. -/
inductive NumeralError where
  | malformed | outOfRange
  deriving DecidableEq, Repr

/-- The wording of a failure. -/
def NumeralError.message : NumeralError → String
  | malformed => "invalid syntax"
  | outOfRange => "value out of range"

/-- The value of a digit in any base up to thirty-six. -/
def digitValue? (c : Char) : Option Nat :=
  if '0' ≤ c ∧ c ≤ '9' then some (c.toNat - 48)
  else if 'a' ≤ c ∧ c ≤ 'z' then some (c.toNat - 87)
  else if 'A' ≤ c ∧ c ≤ 'Z' then some (c.toNat - 55)
  else none

/-- The value of digits after a value so far. -/
def magnitude (base : Nat) : Nat → List Char → Except NumeralError Nat
  | n, [] => .ok n
  | n, c :: rest =>
    if c = '_' then magnitude base n rest
    else match digitValue? c with
      | none => .error .malformed
      | some d =>
        if base ≤ d then .error .malformed
        else if UInt64.size ≤ n * base + d then .error .outOfRange
        else magnitude base (n * base + d) rest

/-- The base of an unsigned number and its digits without the mark. -/
def baseAndDigits : List Char → Nat × List Char
  | '0' :: mark :: d :: rest =>
    match mark.toLower with
    | 'x' => (16, d :: rest)
    | 'o' => (8, d :: rest)
    | 'b' => (2, d :: rest)
    | _ => (8, mark :: d :: rest)
  | '0' :: rest => (8, rest)
  | digits => (10, digits)

/-- Whether every underscore stands between two digits. The flag tells whether a digit, or the mark
of a base, stands before. -/
def underscoresSeparate : Bool → List Char → Bool
  | _, [] => true
  | afterDigit, '_' :: rest =>
    afterDigit && (rest.head?.any fun c => c ≠ '_') && underscoresSeparate false rest
  | _, _ :: rest => underscoresSeparate true rest

/-- The value of an unsigned number. -/
def unsigned (cs : List Char) : Except NumeralError Nat :=
  if cs.isEmpty then .error .malformed
  else
    let (base, digits) := baseAndDigits cs
    match magnitude base 0 digits with
    | .error e => .error e
    | .ok n =>
      if underscoresSeparate (digits.length < cs.length) digits then .ok n else .error .malformed

/-- The value of an integer. -/
def parseInt64 (s : String) : Except NumeralError Int64 :=
  let (negative, digits) := match s.toList with
    | '-' :: rest => (true, rest)
    | '+' :: rest => (false, rest)
    | cs => (false, cs)
  match unsigned digits with
  | .error e => .error e
  | .ok n =>
    if negative then
      if n ≤ 0x8000000000000000 then .ok (Int64.ofInt (-n)) else .error .outOfRange
    else if n < 0x8000000000000000 then .ok (Int64.ofNat n)
    else .error .outOfRange

end CodeEmission.Text
