import CodeEmission.Text.Hex

/-!
# JSON Text

Strings and small objects in the JSON form that trace files and the machine-readable command
outputs use. Beside what JSON itself forbids in a string, the characters `<`, `>`, `&` and the two
line separators are escaped, so that the text can stand inside a page.
-/

namespace CodeEmission.Text

/-- One character inside a JSON string. -/
def jsonChar (c : Char) : List Char :=
  match c.toNat with
  | 0x22 => ['\\', '\x22']
  | 0x5c => ['\\', '\\']
  | 8 => ['\\', 'b']
  | 12 => ['\\', 'f']
  | 10 => ['\\', 'n']
  | 13 => ['\\', 'r']
  | 9 => ['\\', 't']
  | n =>
    if n < 0x20 ∨ n = 0x3c ∨ n = 0x3e ∨ n = 0x26 ∨ n = 0x2028 ∨ n = 0x2029 then
      '\\' :: 'u' :: hexFixed 4 n
    else [c]

/-- A JSON string. -/
def jsonString (s : String) : String :=
  String.ofList ('\x22' :: s.toList.flatMap jsonChar ++ ['\x22'])

/-- An object on one line. The values are JSON texts already. -/
def jsonLine (fields : List (String × String)) : String :=
  "\x7b" ++ String.intercalate "," (fields.map fun (k, v) => jsonString k ++ ":" ++ v) ++ "\x7d"

/-- An object with one field a line, each two spaces in. The values are JSON texts already. -/
def jsonBlock (fields : List (String × String)) : String :=
  match fields with
  | [] => "\x7b\x7d"
  | _ => "\x7b\n" ++
      String.intercalate ",\n" (fields.map fun (k, v) => "  " ++ jsonString k ++ ": " ++ v) ++
      "\n\x7d"

end CodeEmission.Text
