/-!
# Blank Characters

The characters that count as white space wherever this library trims a text or drops the spaces
inside one. The class is that of the Unicode property `White_Space`, so it holds the no-break and
ideographic spaces but neither the zero-width space nor the byte-order mark.

Texts are cut on their list of characters; `trim` only ever removes characters at the two ends and
`dropBlanks` removes them everywhere.
-/

namespace CodeEmission.Text

/-- A white-space character of any script. -/
def isBlank (c : Char) : Bool :=
  c == ' ' || (0x09 ≤ c.toNat && c.toNat ≤ 0x0d) || c.toNat == 0x85 || c.toNat == 0xa0 ||
    c.toNat == 0x1680 || (0x2000 ≤ c.toNat && c.toNat ≤ 0x200a) || c.toNat == 0x2028 ||
    c.toNat == 0x2029 || c.toNat == 0x202f || c.toNat == 0x205f || c.toNat == 0x3000

/-- A text without the blanks at its two ends. -/
def trim (s : String) : String :=
  String.ofList ((s.toList.dropWhile isBlank).reverse.dropWhile isBlank).reverse

/-- A text without any of its blanks. -/
def dropBlanks (s : String) : List Char :=
  s.toList.filter (fun c => !isBlank c)

end CodeEmission.Text
