import CodeEmission.Text.Composed.Tables

/-!
# Canonical Composition of Text

Symbol names are brought to the composed canonical form, so that names which look the same are the
same. A text is cut into segments, each a starter with what combines onto it; a segment is
decomposed, its marks are put in the order of their combining classes, and what composes is composed
again. Once a segment has come to a Hangul letter after its first character, only syllables are
composed in the rest of it.

A run of more than thirty non-starters is broken up: the combining grapheme joiner is added after
the thirtieth, and a new segment starts there, so that neither order nor composition crosses it. The
non-starters are counted on the compatibility decomposition.
-/

namespace CodeEmission.Text

/-- The canonical combining class of a code point. -/
def combiningClass (n : Nat) : Nat :=
  if n < 0x300 then 0 else (combiningClassTable.find? n).getD 0

/-- A Hangul syllable. -/
def isHangulSyllable (n : Nat) : Bool :=
  0xac00 ≤ n && n ≤ 0xd7a3

/-- Whether a character can be the second of a composing pair. -/
def composesBackward (n : Nat) : Bool :=
  if n < 0x300 then false else (composesBackwardTable.find? n).isSome

/-- The number of non-starters at the start and at the end of a character's decomposition. -/
def nonStarters (n : Nat) : Nat × Nat :=
  if n < 0xa8 then (0, 0)
  else if isHangulSyllable n then (0, if (n - 0xac00) % 28 = 0 then 1 else 2)
  else (nonStarterTable.find? n).getD (0, 0)

/-- The full canonical decomposition of a code point. -/
def decompose (n : Nat) : List Nat :=
  if n < 0xc0 then [n]
  else if isHangulSyllable n then
    let i := n - 0xac00
    [0x1100 + i / 588, 0x1161 + i % 588 / 28] ++ (if i % 28 = 0 then [] else [0x11a7 + i % 28])
  else (decompositionTable.find? n).getD [n]

/-- The composite of two code points, if they compose. Pairs are told apart by their lower sixteen
bits alone, so a code point beyond those composes like the one that shares them. -/
def compose? (a b : Nat) : Option Nat :=
  match compositionTable.find? (a % UInt16.size) with
  | none => none
  | some pairs => (pairs.find? fun p => p.1 = b % UInt16.size).map Prod.snd

/-- A Hangul letter. -/
def isJamo (n : Nat) : Bool :=
  0x1100 ≤ n && n ≤ 0x11ff

/-- The Hangul syllable of a leading consonant and a vowel, or of a syllable and a trailing
consonant. -/
def syllable? (a b : Nat) : Option Nat :=
  if 0x1100 ≤ a && a ≤ 0x1112 && 0x1161 ≤ b && b ≤ 0x1175 then
    some (0xac00 + (a - 0x1100) * 588 + (b - 0x1161) * 28)
  else if isHangulSyllable a && (a - 0xac00) % 28 = 0 && 0x11a8 ≤ b && b ≤ 0x11c2 then
    some (a + (b - 0x11a7))
  else none

/-- Put one code point into a decomposed segment, given in reverse: a mark moves before marks of a
higher class, a starter stays at the end. -/
def insertByClass (n : Nat) : List Nat → List Nat
  | [] => [n]
  | last :: before =>
    if combiningClass n ≠ 0 ∧ combiningClass n < combiningClass last then
      last :: insertByClass n before
    else n :: last :: before

/-- A segment, decomposed and with its marks in order. -/
def orderedDecomposition (segment : List Nat) : List Nat :=
  ((segment.flatMap decompose).foldl (fun done n => insertByClass n done) []).reverse

/-- What is left of a segment while it is being composed: the code points that are done, in reverse,
and where the last starter stands among them, counted from the start. After a Hangul letter only
syllables are composed. -/
structure Composing where
  /-- The code points kept so far, the last one first. -/
  done : List Nat
  /-- The place of the starter that later marks may join. -/
  starter : Nat := 0
  /-- Whether a Hangul letter has been taken in. -/
  hangul : Bool := false

/-- Replace the code point at a place, counted from the start of a reversed list. -/
def replaceAt (done : List Nat) (place value : Nat) : List Nat :=
  done.set (done.length - 1 - place) value

namespace Composing

/-- Let one more code point join the starter by a rule, or keep it behind what is done. A mark
between them blocks it if its class is as high. -/
def join (rule : Nat → Nat → Option Nat) (s : Composing) (n : Nat) : Composing :=
  let lastPlace := s.done.length - 1
  let lastClass := combiningClass (s.done.head?.getD 0)
  -- what stands last is the starter, unless it is a mark
  let starter := if lastClass = 0 then lastPlace else s.starter
  let blocked := starter ≠ lastPlace && combiningClass n ≤ lastClass
  match if blocked then none else rule (s.done[lastPlace - starter]?.getD 0) n with
  | some c => { s with done := replaceAt s.done starter c, starter }
  | none => { s with done := n :: s.done, starter }

/-- Take in one more code point. -/
def push (s : Composing) (n : Nat) : Composing :=
  if s.hangul || isJamo n then { s with hangul := true }.join syllable? n
  else if composesBackward n then s.join compose? n
  else { s with done := n :: s.done }

end Composing

/-- Compose an ordered segment. -/
def composeSegment : List Nat → List Nat
  | [] => []
  | first :: rest => (rest.foldl Composing.push { done := [first] }).done.reverse

/-- The most non-starters that may follow one another. -/
def maxNonStarters : Nat := 30

/-- The joiner that breaks up a longer run. -/
def graphemeJoiner : Nat := 0x34f

/-- A text cut into segments. Each one is a list of code points and whether a joiner follows it.
`open_` is the segment being read, in reverse, and `count` its trailing non-starters. -/
def segmentsFrom (open_ : List Nat) (count : Nat) : List Nat → List (List Nat × Bool)
  | [] => if open_.isEmpty then [] else [(open_.reverse, false)]
  | n :: rest =>
    let (lead, trail) := nonStarters n
    if lead = 0 then
      let later := segmentsFrom [n] trail rest
      if open_.isEmpty then later else (open_.reverse, false) :: later
    else if maxNonStarters < count + lead then
      (open_.reverse, true) :: segmentsFrom [n] lead rest
    else segmentsFrom (n :: open_) (count + lead) rest

/-- One segment in composed form. -/
def normalSegment (segment : List Nat) (joiner : Bool) : List Nat :=
  composeSegment (orderedDecomposition segment) ++ (if joiner then [graphemeJoiner] else [])

/-- The composed canonical form of a text. -/
def composed (s : String) : String :=
  if s.toList.all fun c => c.toNat < 0x80 then s
  else
    let codes := s.toList.map Char.toNat
    String.ofList
      (((segmentsFrom [] 0 codes).flatMap fun (seg, joiner) => normalSegment seg joiner).map
        Char.ofNat)

/-- A text of ASCII characters is in composed form. -/
theorem composed_of_ascii {s : String} (h : ∀ c ∈ s.toList, c.toNat < 0x80) : composed s = s := by
  have : (s.toList.all fun c => c.toNat < 0x80) = true := by simpa [List.all_eq_true] using h
  simp [composed, this]

end CodeEmission.Text
