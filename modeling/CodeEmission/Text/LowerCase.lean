/-!
# Lower Case of Names

Names on a command line, in a triple or in a settings file are compared without regard to case.
Every name they are compared with is written in ASCII, so two things matter about the lower case of
a letter: which ASCII letter it is, if it is one, and how many bytes it takes, which counts when the
distance of two words is measured. Outside of ASCII, `recodedTable` lists the letters for which
either changes; every other character stands for itself.

Keys of a document are matched by case folding instead, which also takes the long s for an s and
does not touch the dotted capital I.
-/

namespace CodeEmission.Text

/-- The letters outside of ASCII whose lower case takes another number of bytes, with that lower
case. The dotted capital I and the Kelvin sign become ASCII letters. -/
def recodedTable : List (Nat × Nat) :=
  [(0x130, 0x69), (0x23a, 0x2c65), (0x23e, 0x2c66), (0x1e9e, 0xdf), (0x2126, 0x3c9),
    (0x212a, 0x6b), (0x212b, 0xe5), (0x2c62, 0x26b), (0x2c64, 0x27d), (0x2c6d, 0x251),
    (0x2c6e, 0x271), (0x2c6f, 0x250), (0x2c70, 0x252), (0x2c7e, 0x23f), (0x2c7f, 0x240),
    (0xa78d, 0x265), (0xa7aa, 0x266), (0xa7ab, 0x25c), (0xa7ac, 0x261), (0xa7ad, 0x26c),
    (0xa7ae, 0x26a), (0xa7b0, 0x29e), (0xa7b1, 0x287), (0xa7b2, 0x29d), (0xa7c5, 0x282),
    (0xa7cb, 0x264), (0xa7dc, 0x19b)]

/-- The lower case of a character, as far as it is an ASCII letter or takes another number of
bytes. -/
def lowerChar (c : Char) : Char :=
  if 'A' ≤ c ∧ c ≤ 'Z' then Char.ofNat (c.toNat + 32)
  else match recodedTable.lookup c.toNat with
    | some n => Char.ofNat n
    | none => c

/-- A text with every character in lower case. -/
def lower (s : String) : String :=
  String.ofList (s.toList.map lowerChar)

/-- The character that stands for all characters equal to `c` up to case, as far as that is an
ASCII letter. -/
def foldChar (c : Char) : Char :=
  if 'A' ≤ c ∧ c ≤ 'Z' then Char.ofNat (c.toNat + 32)
  else if c.toNat = 0x17f then 's'
  else if c.toNat = 0x212a then 'k'
  else c

/-- Whether a key is the given name up to case. Names are written in lower-case ASCII. -/
def sameName (name key : String) : Bool :=
  key.toList.map foldChar == name.toList

end CodeEmission.Text
