import CodeEmission.Text.Blank
import CodeEmission.Text.Quoted

/-!
# Instruction Encodings

Machine code is given in hexadecimal, two digits a byte, with blanks anywhere. The first character
that is neither a blank nor a digit is reported before an odd number of digits is. It is reported by
the first byte of its UTF-8 form.
-/

namespace CodeEmission

/-- Why an encoding could not be read. Every cause holds the whole text. -/
inductive EncodingError where
  | invalidByte (text : String) (byte : UInt8)
  | oddLength (text : String)
  deriving DecidableEq, Repr

/-- A byte by its code point and, where that is printable, its character. -/
def codePointText (byte : UInt8) : String :=
  let c := Char.ofNat byte.toNat
  "U+" ++ String.ofList ((Text.hexFixed 4 byte.toNat).map Char.toUpper) ++
    (if Text.isPrintable c then " '" ++ c.toString ++ "'" else "")

/-- The wording of a failure. -/
def EncodingError.message : EncodingError → String
  | invalidByte text byte =>
    "invalid encoding " ++ Text.quote text ++ ": encoding/hex: invalid byte: " ++
      codePointText byte
  | oddLength text =>
    "invalid encoding " ++ Text.quote text ++ ": encoding/hex: odd length hex string"

/-- The first byte of a character's UTF-8 form. -/
def leadByte (c : Char) : UInt8 :=
  (String.utf8EncodeChar c).head?.getD 0

/-- Whether a character is no hexadecimal digit. -/
def isStray (c : Char) : Bool :=
  (Text.hexValue? c).isNone

/-- Read machine code. -/
def decodeEncoding (text : String) : Except EncodingError (List UInt8) :=
  let digits := Text.dropBlanks text
  match digits.find? isStray with
  | some c => .error (.invalidByte text (leadByte c))
  | none =>
    match Text.ofHexDigits? digits with
    | some bytes => .ok bytes
    | none => .error (.oddLength text)

end CodeEmission
