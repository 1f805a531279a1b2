import CodeEmission.Assembly.Line

/-!
# Listings

`Listing.ofUnit` writes a unit as lines of assembly: a banner, the functions, the data and what the
object format wants at the end. The text of a listing is that of its lines, each with a line end.

Only two things can stop it: an operand of no known kind, and a value whose width the platform has
no directive for. Then there is no listing at all.
-/

namespace CodeEmission

/-- Why a unit has no listing. -/
inductive ListingError where
  | inst (func : String) (number : Nat) (cause : InstError)
  | noDirective (data : String) (value : Nat) (size : Int64) (bucket : Bucket)
  deriving DecidableEq, Repr

/-- The wording of a failure. -/
def ListingError.message : ListingError → String
  | inst func i cause =>
    "func " ++ func ++ ": instruction " ++ Nat.repr i ++ ": " ++ cause.message
  | noDirective data value size bucket =>
    "data " ++ data ++ ": value " ++ Nat.repr value ++ ": no " ++ Text.ofInt64 size ++
      "-byte data directive on " ++ bucket.render

namespace Listing

/-- The line that aligns to a number of bytes, unless that is one or less. -/
def alignLines (p : Profile) (align : Int64) (fill : Bool) : List Line :=
  if align ≤ 1 then []
  else [.align (if p.alignInBytes then align.toInt else log2Align align) fill]

/-- The lines that export a symbol. -/
def linkageLines (p : Profile) (sym : String) : Linkage → List Line
  | .global => [.exported sym]
  | .weak =>
    if p.weakDefDirective = "" then [.weakReference sym]
    else [.exported sym, .weakDefinition sym]
  | _ => []

/-- The lines before a function's body that open its unwind record. -/
def unwindOpening (sym : String) (u : Unwind) : List Line :=
  match u.kind with
  | .cfi =>
    .cfiStart :: (if u.personalitySym = "" then [] else [.cfiPersonality u.personalitySym])
  | .seh =>
    .sehStart sym :: (if u.personalitySym = "" then [] else [.sehHandler u.personalitySym]) ++
      [.sehEndPrologue]
  | _ => []

/-- The lines after a function's body that close its unwind record. -/
def unwindClosing (u : Unwind) : List Line :=
  match u.kind with
  | .cfi => [.cfiEnd]
  | .seh => [.sehEnd]
  | _ => []

/-- The lines of instructions, numbered from `i` on. -/
def instLines (p : Profile) (func : String) (i : Nat) :
    List Inst → Except ListingError (List Line)
  | [] => .ok []
  | inst :: rest =>
    match inst.parts p.dialect p.arch with
    | .error cause => .error (.inst func i cause)
    | .ok (operation, operands) =>
      match instLines p func (i + 1) rest with
      | .error e => .error e
      | .ok lines =>
        .ok ((if inst.label = "" then [] else [.label inst.label]) ++
          .instruction operation operands :: lines)

/-- The lines of a jump table. -/
def tableLines (p : Profile) (t : JumpTable) : List Line :=
  alignLines p 4 false ++ (if p.dataRegions then [.regionStart] else []) ++
    .label t.label :: t.targets.map (.tableEntry · t.label) ++
    (if p.dataRegions then [.regionEnd] else [])

/-- The lines of a function. -/
def funcLines (p : Profile) (f : Func) : Except ListingError (List Line) :=
  let sym := f.emittedName
  match instLines p f.name 0 f.insts with
  | .error e => .error e
  | .ok body =>
    .ok (alignLines p f.align true ++ linkageLines p sym f.linkage ++
      (if p.format = .elf then [.functionType sym] else []) ++
      [.label sym] ++ unwindOpening sym f.unwind ++ body ++ unwindClosing f.unwind ++
      f.jumpTables.flatMap (tableLines p))

/-- The lines of values, numbered from `i` on. -/
def valueLines (p : Profile) (data : String) (i : Nat) :
    List Datum → Except ListingError (List Line)
  | [] => .ok []
  | v :: rest =>
    match p.dataDirective? v.size.toInt with
    | none => .error (.noDirective data i v.size p.bucket)
    | some directive =>
      match valueLines p data (i + 1) rest with
      | .error e => .error e
      | .ok lines => .ok (.datum directive v :: lines)

/-- The lines of a data object. -/
def dataLines (p : Profile) (d : DataObject) : Except ListingError (List Line) :=
  let sym := d.emittedName
  match valueLines p d.name 0 d.values with
  | .error e => .error e
  | .ok body =>
    .ok (alignLines p d.align false ++ linkageLines p sym d.linkage ++
      (if p.format = .elf then [.objectType sym] else []) ++ [.label sym] ++ body)

/-- The lines before the first section. -/
def header (p : Profile) (u : CodeUnit) : List Line :=
  .banner u.name :: (if p.dialect = .intel then [.intelMode] else []) ++
    (if p.debugInfo ∧ u.sourceFile ≠ "" then [.sourceFile u.sourceFile] else [])

/-- The lines after the last section. -/
def footer (p : Profile) : List Line :=
  (if p.nonexecStackSection = "" then [] else [.nonexecStack]) ++
    (if p.format = .macho then [.subsections] else [])

/-- The listing of a unit. -/
def ofUnit (p : Profile) (u : CodeUnit) : Except ListingError (List Line) := do
  let funcs ← u.funcs.mapM (funcLines p)
  let data ← u.data.mapM (dataLines p)
  return header p u ++ (if u.funcs.isEmpty then [] else [.textSection]) ++ funcs.flatten ++
    (if u.data.isEmpty then [] else [.dataSection]) ++ data.flatten ++ footer p

/-- The text of a listing. -/
def render (p : Profile) (lines : List Line) : String :=
  String.join (lines.map fun line => line.render p ++ "\n")

end Listing

/-- A unit as assembly text. -/
def assemblyText (p : Profile) (u : CodeUnit) : Except ListingError String :=
  (Listing.ofUnit p u).map (Listing.render p)

end CodeEmission
