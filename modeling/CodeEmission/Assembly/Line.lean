import CodeEmission.Assembly.Operand
import CodeEmission.CodeUnit.Verify

/-!
# Lines of a Listing

A listing is a list of lines. Each constructor of `Line` is one shape of line, and `Line.render`
words it under a profile, without its line end.
-/

namespace CodeEmission

/-- The encoding of personality pointers in unwind tables: indirect, relative to the program
counter, four signed bytes. -/
def personalityEncoding : Nat := 0x9b

/-- One line of assembly. -/
inductive Line where
  | banner (unit : String)
  | intelMode
  | sourceFile (path : String)
  | textSection
  | dataSection
  | nonexecStack
  | subsections
  | align (amount : Int) (fill : Bool)
  | exported (sym : String)
  | weakDefinition (sym : String)
  | weakReference (sym : String)
  | functionType (sym : String)
  | objectType (sym : String)
  | label (sym : String)
  | cfiStart
  | cfiPersonality (sym : String)
  | cfiEnd
  | sehStart (sym : String)
  | sehHandler (sym : String)
  | sehEndPrologue
  | sehEnd
  | instruction (operation : String) (operands : List String)
  | regionStart
  | regionEnd
  | tableEntry (target table : String)
  | datum (directive : String) (value : Datum)
  deriving DecidableEq, Repr

/-- The text of a value: its integer, or its symbol with the offset. -/
def Datum.text (v : Datum) : String :=
  if v.sym = "" then Text.ofInt64 v.int else symPlus v.sym v.int

namespace Line

/-- The text of a line. -/
def render (p : Profile) : Line → String
  | banner unit => p.comment ++ " mcemit unit " ++ unit ++ " (" ++ p.bucket.render ++ ")"
  | intelMode => "\t.intel_syntax noprefix"
  | sourceFile path => "\t.file\t" ++ Text.quote path
  | textSection => p.textSectionDirective
  | dataSection => p.dataSectionDirective
  | nonexecStack => "\t.section\t" ++ p.nonexecStackSection ++ ",\"\",@progbits"
  | subsections => "\t.subsections_via_symbols"
  | align amount fill =>
    p.alignDirective ++ Text.ofInt amount ++
      (if fill then ", 0x" ++ String.ofList (Nat.toDigits 16 p.textFill.toNat) else "")
  | exported sym => p.globalDirective ++ sym
  | weakDefinition sym => p.weakDefDirective ++ sym
  | weakReference sym => p.weakRefDirective ++ sym
  | functionType sym => "\t.type\t" ++ sym ++ ",@function"
  | objectType sym => "\t.type\t" ++ sym ++ ",@object"
  | label sym => sym ++ ":"
  | cfiStart => "\t.cfi_startproc"
  | cfiPersonality sym => "\t.cfi_personality " ++ Nat.repr personalityEncoding ++ ", " ++ sym
  | cfiEnd => "\t.cfi_endproc"
  | sehStart sym => "\t.seh_proc\t" ++ sym
  | sehHandler sym => "\t.seh_handler\t" ++ sym ++ ", @unwind, @except"
  | sehEndPrologue => "\t.seh_endprologue"
  | sehEnd => "\t.seh_endproc"
  | instruction operation [] => "\t" ++ operation
  | instruction operation operands =>
    "\t" ++ operation ++ "\t" ++ String.intercalate ", " operands
  | regionStart => "\t.data_region jt32"
  | regionEnd => "\t.end_data_region"
  | tableEntry target table => p.data32Directive ++ target ++ "-" ++ table
  | datum directive value => directive ++ value.text

end Line

end CodeEmission
