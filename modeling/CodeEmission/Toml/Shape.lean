import CodeEmission.Text.LowerCase
import CodeEmission.Toml.Document

/-!
# Shapes of Documents

A shape says which keys a table may hold and what their values are. Keys are matched up to case.
`fits` says whether every known key has a value of its shape, and `knownKeys` which keys of a
document a shape accounts for; the other keys are unknown.

The getters read the fields of a table whose shape is known to fit, and give an empty value for a
key that is missing.
-/

namespace CodeEmission.Toml

/-- What a value has to be. -/
inductive Shape where
  | text
  | integer
  | boolean
  | list (item : Shape)
  | record (fields : List (String × Shape))
  deriving Repr, Inhabited

mutual

/-- Whether a value has a shape. Unknown keys do no harm. -/
def Shape.fits : Shape → Node → Bool
  | .text, v => match v with
    | .text _ => true
    | _ => false
  | .integer, v => match v with
    | .integer _ => true
    | _ => false
  | .boolean, v => match v with
    | .boolean _ => true
    | _ => false
  | .list item, v => match v with
    | .array items => items.all fun v => item.fits v
    | .tables elements => elements.all fun t => item.fits (.table t)
    | _ => false
  | .record fields, v => match v with
    | .table entries => entries.all fun (name, v) => fieldFits fields name v
    | _ => false

/-- Whether the value of a key has the shape of the field of that name, if there is one. -/
def fieldFits : List (String × Shape) → String → Node → Bool
  | [], _, _ => true
  | (field, shape) :: rest, name, v =>
    if Text.sameName field name then shape.fits v else fieldFits rest name v

end

mutual

/-- The paths of all keys below a path that a shape accounts for. -/
def Shape.knownKeys (context : KeyPath) : Shape → Node → List KeyPath
  | .list item, v => match v with
    | .array items => items.flatMap fun v => item.knownKeys context v
    | .tables elements => elements.flatMap fun t => item.knownKeys context (.table t)
    | _ => []
  | .record fields, v => match v with
    | .table entries => entries.flatMap fun (name, v) => fieldKeys context fields name v
    | _ => []
  | _, _ => []

/-- The path of a key, if there is a field of its name, and those of the keys below it. -/
def fieldKeys (context : KeyPath) : List (String × Shape) → String → Node → List KeyPath
  | [], _, _ => []
  | (field, shape) :: rest, name, v =>
    if Text.sameName field name then
      (context ++ [name]) :: shape.knownKeys (context ++ [name]) v
    else fieldKeys context rest name v

end

/-- Why a document does not have the shape that is asked for. -/
inductive ShapeError where
  | malformed
  | unknownKeys (keys : List KeyPath)
  deriving DecidableEq, Repr

/-- The wording of a failure. What exactly is malformed is not said. -/
def ShapeError.message : ShapeError → String
  | malformed => "failed to parse TOML"
  | unknownKeys keys => "unknown keys: " ++ String.intercalate ", " (keys.map pathText)

/-- Read a document of a shape. A value of the wrong kind comes before unknown keys. -/
def Document.ofShape (shape : Shape) (text : String) : Except ShapeError Document :=
  match Document.parse? text with
  | none => .error .malformed
  | some d =>
    if shape.fits (.table d.root) then
      let known := shape.knownKeys [] (.table d.root)
      match d.keys.filter fun k => !known.contains k with
      | [] => .ok d
      | keys => .error (.unknownKeys keys)
    else .error .malformed

namespace Table

/-- The value of a field. When two spellings of its name are there, the later one counts. -/
def field? (t : Table) (name : String) : Option Node :=
  (t.reverse.find? fun e => Text.sameName name e.1).map Prod.snd

/-- The text of a field. -/
def text (t : Table) (name : String) : String :=
  match t.field? name with
  | some (.text s) => s
  | _ => ""

/-- The integer of a field. -/
def integer (t : Table) (name : String) : Int64 :=
  match t.field? name with
  | some (.integer n) => n
  | _ => 0

/-- The truth value of a field. -/
def boolean (t : Table) (name : String) : Bool :=
  match t.field? name with
  | some (.boolean b) => b
  | _ => false

/-- The items of a field. -/
def items (t : Table) (name : String) : List Node :=
  match t.field? name with
  | some (.array items) => items
  | some (.tables elements) => elements.map Node.table
  | _ => []

/-- The items of a field that are tables. -/
def records (t : Table) (name : String) : List Table :=
  (t.items name).filterMap fun
    | .table entries => some entries
    | _ => none

/-- The items of a field that are texts. -/
def texts (t : Table) (name : String) : List String :=
  (t.items name).filterMap fun
    | .text s => some s
    | _ => none

/-- The entries of a field that is a table. Tables under several spellings of its name are taken
together. -/
def sub (t : Table) (name : String) : Table :=
  t.flatMap fun
    | (key, .table entries) => if Text.sameName name key then entries else []
    | _ => []

end Table

end CodeEmission.Toml
