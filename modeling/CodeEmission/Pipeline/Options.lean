import CodeEmission.Text.Blank
import CodeEmission.Text.LowerCase
import CodeEmission.Text.Quoted

/-!
# Emission Options

What to write after the last stage, whether to check the unit after each stage, and which stages to
run.
-/

namespace CodeEmission

/-- What is written after the last stage: assembly text, an object, or nothing. `other` is a kind
that no driver accepts; the empty name asks for the usual kind. -/
inductive FileKind where
  | asm | obj | null
  | other (name : String)
  deriving DecidableEq, Repr, Inhabited

namespace FileKind

/-- The kind of an exact name. -/
def ofText : String → FileKind
  | "asm" => asm
  | "obj" => obj
  | "null" => null
  | s => other s

/-- The name of a kind. -/
def text : FileKind → String
  | asm => "asm"
  | obj => "obj"
  | null => "null"
  | other s => s

/-- A kind as a flag spells it, in any case, with blanks around it, and with short forms. -/
def ofFlag? (s : String) : Option FileKind :=
  match Text.lower (Text.trim s) with
  | "asm" | "s" | "" => some asm
  | "obj" | "o" => some obj
  | "null" => some null
  | _ => none

/-- The wording when a flag is no kind. -/
def badFlagMessage (s : String) : String :=
  "invalid file type: " ++ Text.quote s ++ " (expected: asm|obj|null)"

/-- The usual ending of an output file. -/
def fileEnding : FileKind → String
  | asm => ".s"
  | obj => ".o"
  | null | other _ => ""

end FileKind

/-- One emission request. -/
structure Options where
  /-- What to write. -/
  fileKind : FileKind := .other ""
  /-- Whether to check the unit after every stage. -/
  verify : Bool := false
  /-- Skip the stages up to and including this one; empty for none. -/
  startAfter : String := ""
  /-- Stop after this stage and write nothing; empty for no stop. -/
  stopAfter : String := ""
  deriving DecidableEq, Repr, Inhabited

end CodeEmission
