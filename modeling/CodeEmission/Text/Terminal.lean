import CodeEmission.Text.Cells
import CodeEmission.Text.Quoted

/-!
# Columns on a Terminal

How many columns a line takes when it is written to a terminal. Control sequences take none: they
are recognised byte by byte by the states of `Control`, as terminals do. Everything else is counted
by grapheme clusters, and a cluster takes as many columns as its characters together, but for
pictures, flags and Hangul syllables, which take those of their first character.

`alignLines` makes the lines of a text equally wide.
-/

namespace CodeEmission.Text

/-- How far a control sequence has come. A command has numbers, further signs in its middle and a
letter at its end; one for a device or for the operating system goes on with a text, in which
characters of any kind may stand. A terminal passes over what is `marked`. -/
inductive Control where
  | ground
  | escape | escapeMiddle
  | command | commandNumbers | commandMiddle
  | device | deviceNumbers | deviceMiddle | deviceText
  | systemText
  | marked
  deriving DecidableEq, Repr, Inhabited

namespace Control

/-- The state after a byte that means the same in every state but the texts of commands. -/
def afterControl (b : UInt8) : Option Control :=
  if b = 0x1b then some escape
  else if b = 0x90 then some device
  else if b = 0x9b then some command
  else if b = 0x9d then some systemText
  else if b = 0x98 ∨ b = 0x9e ∨ b = 0x9f then some marked
  else if b = 0x18 ∨ b = 0x1a ∨ 0x80 ≤ b then some ground
  else none

/-- The state that the byte after an escape leads to. -/
def afterEscape (b : UInt8) : Control :=
  if b < 0x20 ∨ b = 0x7f then escape
  else if b < 0x30 then escapeMiddle
  else if b = 0x50 then device
  else if b = 0x5b then command
  else if b = 0x5d then systemText
  else if b = 0x58 ∨ b = 0x5e ∨ b = 0x5f then marked
  else ground

/-- The state after a byte inside a command that ends with a letter, given the state that waits for
numbers and the one that waits for the letter. -/
def afterNumber (here numbers middle done : Control) (b : UInt8) : Control :=
  if b < 0x20 ∨ b = 0x7f then here
  else if b < 0x30 then middle
  else if b < 0x40 then numbers
  else done

/-- The state after a byte. -/
def next (s : Control) (b : UInt8) : Control :=
  match s with
  | deviceText =>
    if b = 0x1b then escape else if b = 0x18 ∨ b = 0x1a ∨ b = 0x9c then ground else deviceText
  | systemText =>
    if b = 0x1b then escape
    else if b = 0x07 ∨ b = 0x18 ∨ b = 0x1a ∨ b = 0x9c then ground
    else systemText
  | device =>
    -- line controls and an escape already belong to the text
    if b = 0x1b ∨ (0x08 ≤ b ∧ b ≤ 0x0d) then deviceText
    else (afterControl b).getD (afterNumber device deviceNumbers deviceMiddle deviceText b)
  | ground => (afterControl b).getD ground
  | escape => (afterControl b).getD (afterEscape b)
  | escapeMiddle => (afterControl b).getD (if b < 0x30 ∨ b = 0x7f then escapeMiddle else ground)
  | command =>
    (afterControl b).getD (afterNumber command commandNumbers commandMiddle ground b)
  | commandNumbers =>
    (afterControl b).getD (afterNumber commandNumbers commandNumbers commandMiddle ground b)
  | commandMiddle =>
    (afterControl b).getD (afterNumber commandMiddle ground commandMiddle ground b)
  | deviceNumbers =>
    (afterControl b).getD (afterNumber deviceNumbers deviceNumbers deviceMiddle deviceText b)
  | deviceMiddle =>
    (afterControl b).getD (afterNumber deviceMiddle deviceText deviceMiddle deviceText b)
  | marked => (afterControl b).getD marked

/-- Whether characters outside of ASCII belong to the text of a command. -/
def takesText : Control → Bool
  | deviceText | systemText => true
  | _ => false

end Control

/-- Characters that are pictures unless they are asked to be text. -/
def pictureTable : RangeTable Unit :=
  RangeTable.ofText (fun _ => ()) "
231a-231b 23e9-23ec 23f0-23f0 23f3-23f3 25fd-25fe 2614-2615 2648-2653 267f-267f 2693-2693
26a1-26a1 26aa-26ab 26bd-26be 26c4-26c5 26ce-26ce 26d4-26d4 26ea-26ea 26f2-26f3 26f5-26f5
26fa-26fa 26fd-26fd 2705-2705 270a-270b 2728-2728 274c-274c 274e-274e 2753-2755 2757-2757
2795-2797 27b0-27b0 27bf-27bf 2b1b-2b1c 2b50-2b50 2b55-2b55 1f004-1f004 1f0cf-1f0cf 1f18e-1f18e
1f191-1f19a 1f201-1f201 1f21a-1f21a 1f22f-1f22f 1f232-1f236 1f238-1f23a 1f250-1f251 1f300-1f320
1f32d-1f335 1f337-1f37c 1f37e-1f393 1f3a0-1f3ca 1f3cf-1f3d3 1f3e0-1f3f0 1f3f4-1f3f4 1f3f8-1f43e
1f440-1f440 1f442-1f4fc 1f4ff-1f53d 1f54b-1f54e 1f550-1f567 1f57a-1f57a 1f595-1f596 1f5a4-1f5a4
1f5fb-1f64f 1f680-1f6c5 1f6cc-1f6cc 1f6d0-1f6d2 1f6d5-1f6d7 1f6dc-1f6df 1f6eb-1f6ec 1f6f4-1f6fc
1f7e0-1f7eb 1f7f0-1f7f0 1f90c-1f93a 1f93c-1f945 1f947-1f9ff 1fa70-1fa7c 1fa80-1fa88 1fa90-1fabd
1fabf-1fac5 1face-1fadb 1fae0-1fae8 1faf0-1faf8"

/-- A wide character of Unicode 15.0, which has five wide characters less than 15.1. -/
def isWide (c : Char) : Bool :=
  wideTable.has c && !((0x2ffc ≤ c.toNat && c.toNat ≤ 0x2fff) || c.toNat = 0x31ef)

/-- The columns of a character by itself. -/
def charColumns (c : Char) : Nat :=
  match graphemeClass c with
  | .control | .carriageReturn | .lineFeed | .extend | .joiner => 0
  | .flag => 2
  | .picture => if pictureTable.has c then 2 else 1
  | _ =>
    -- the two dashes are as long as they are named
    if c.toNat = 0x2e3a then 3
    else if c.toNat = 0x2e3b then 4
    else if isWide c then 2
    else 1

/-- The columns of a picture after a mark that asks for text or for a picture. -/
def restyled (columns : Nat) (c : Char) : Nat :=
  if c.toNat = 0xfe0e then 1 else if c.toNat = 0xfe0f then 2 else columns

/-- The columns of a cluster. -/
def clusterColumns : List Char → Nat
  | [] => 0
  | c :: rest =>
    match graphemeClass c with
    | .picture => rest.foldl restyled (charColumns c)
    | .flag | .hangulL => charColumns c
    | _ => rest.foldl (fun columns c => columns + charColumns c) (charColumns c)

/-- The columns of a text that starts in a state. -/
def columnsFrom (s : Control) (cs : List Char) : Nat :=
  match cs with
  | [] => 0
  | c :: rest =>
    if c.toNat < 0x80 then
      (if s = .ground ∧ 0x20 ≤ c.toNat then 1 else 0) + columnsFrom (s.next c.toNat.toUInt8) rest
    else if s.takesText then
      columnsFrom ((String.utf8EncodeChar c).foldl Control.next s) rest
    else
      let cluster := (clusters (c :: rest)).headD []
      clusterColumns cluster + columnsFrom .ground (rest.drop (cluster.length - 1))
termination_by cs.length
decreasing_by all_goals (simp only [List.length_cons, List.length_drop]; omega)

/-- The columns of a line. -/
def columns (s : String) : Nat :=
  columnsFrom .ground s.toList

/-- Fill lines on the right with spaces until all are as wide as the widest. -/
def alignLines (lines : List String) : List String :=
  let width := (lines.map columns).foldl max 0
  lines.map fun l => l ++ String.ofList (List.replicate (width - columns l) ' ')

/-- A text as a block of lines: a tab becomes four spaces, and all lines are equally wide. -/
def block (s : String) : String :=
  let spaced := s.toList.flatMap fun c => if c == '\t' then [' ', ' ', ' ', ' '] else [c]
  String.intercalate "\n" (alignLines ((String.ofList spaced).splitOn "\n"))

end CodeEmission.Text
