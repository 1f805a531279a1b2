import CodeEmission.Text.Hex
import CodeEmission.Text.Printable

/-!
# Quoted Text

A text between double quotes, as messages and the source-file directive show it. The quote and the
backslash are escaped, seven control characters have letters of their own, other characters below
the space and DEL are written `\x` with two digits, and any other character that is not printable
is written `\u` with four digits or `\U` with eight.

`quoteBytes` does the same for bytes that need not be a text: a byte that starts no character is
written `\x` with two digits.
-/

namespace CodeEmission.Text

/-- One character inside a quoted text. -/
def quoteChar (c : Char) : List Char :=
  if c = '\x22' then ['\\', '\x22']
  else if c = '\\' then ['\\', '\\']
  else if isPrintable c then [c]
  else match c.toNat with
    | 7 => ['\\', 'a']
    | 8 => ['\\', 'b']
    | 12 => ['\\', 'f']
    | 10 => ['\\', 'n']
    | 13 => ['\\', 'r']
    | 9 => ['\\', 't']
    | 11 => ['\\', 'v']
    | n =>
      if n < 0x20 ∨ n = 0x7f then '\\' :: 'x' :: hexFixed 2 n
      else if n < 0x10000 then '\\' :: 'u' :: hexFixed 4 n
      else '\\' :: 'U' :: hexFixed 8 n

/-- A text between double quotes. -/
def quote (s : String) : String :=
  String.ofList ('\x22' :: s.toList.flatMap quoteChar ++ ['\x22'])

/-- The character that starts a byte list, with the bytes after it. -/
def firstChar? (bytes : List UInt8) : Option (Char × List UInt8) :=
  let continuation (b : UInt8) : Option Nat :=
    if 0x80 ≤ b ∧ b ≤ 0xbf then some (b.toNat - 0x80) else none
  match bytes with
  | [] => none
  | a :: rest =>
    if a < 0x80 then some (Char.ofNat a.toNat, rest)
    else match rest with
      | b :: rest₂ =>
        match continuation b with
        | none => none
        | some y =>
          if 0xc2 ≤ a ∧ a ≤ 0xdf then some (Char.ofNat ((a.toNat - 0xc0) * 64 + y), rest₂)
          else match rest₂ with
            | c :: rest₃ =>
              match continuation c with
              | none => none
              | some z =>
                if 0xe0 ≤ a ∧ a ≤ 0xef then
                  let n := (a.toNat - 0xe0) * 4096 + y * 64 + z
                  if 0x800 ≤ n ∧ ¬ (0xd800 ≤ n ∧ n ≤ 0xdfff) then some (Char.ofNat n, rest₃)
                  else none
                else match rest₃ with
                  | d :: rest₄ =>
                    match continuation d with
                    | none => none
                    | some w =>
                      let n := (a.toNat - 0xf0) * 262144 + y * 4096 + z * 64 + w
                      if 0xf0 ≤ a ∧ a ≤ 0xf4 ∧ 0x10000 ≤ n ∧ n ≤ 0x10ffff then
                        some (Char.ofNat n, rest₄)
                      else none
                  | [] => none
            | [] => none
      | [] => none

/-- Split bytes into characters and the single bytes that belong to none. The fuel is the number of
bytes. -/
def charsOfBytes : Nat → List UInt8 → List (Char ⊕ UInt8)
  | 0, _ => []
  | _, [] => []
  | fuel + 1, b :: rest =>
    match firstChar? (b :: rest) with
    | some (c, after) => .inl c :: charsOfBytes fuel after
    | none => .inr b :: charsOfBytes fuel rest

/-- Bytes between double quotes. -/
def quoteBytes (bytes : List UInt8) : String :=
  String.ofList ('\x22' :: (charsOfBytes bytes.length bytes).flatMap (fun
    | .inl c => quoteChar c
    | .inr b => '\\' :: 'x' :: hexByte b) ++ ['\x22'])

/-- Bytes read as text. Where they are none, a byte that belongs to no character reads as the
replacement character. -/
def textOfBytes (bytes : List UInt8) : String :=
  match String.fromUTF8? ⟨bytes.toArray⟩ with
  | some text => text
  | none => String.ofList ((charsOfBytes bytes.length bytes).map (fun
    | .inl c => c
    | .inr _ => Char.ofNat 0xfffd))

/-- The bytes of a text. -/
def bytesOfText (text : String) : List UInt8 :=
  text.toUTF8.toList

end CodeEmission.Text
