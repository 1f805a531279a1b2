import CodeEmission.Toml.Reader

/-!
# TOML Documents

What the statements of a document build: a tree of tables, and the list of all keys in the order in
which they were written.

A header opens a table and an assignment fills one. Tables that a dotted key merely passes through
are implicit: they come into being on the way and may still be opened once by a header or by a
further dotted key. A key has one value for good, with two exceptions: an implicit table may be
opened, and a key whose last literal was an array may be assigned again, as may any key by an array.

`Builder` is the state between two statements. Its bookkeeping is by key path, without regard to
the element of an array of tables that a path goes through.
-/

namespace CodeEmission.Toml

/-- A value of a document. An array of tables that headers opened is told from an array literal,
since only the former can grow. -/
inductive Node where
  | text (s : String)
  | integer (n : Int64)
  | float (s : String)
  | boolean (b : Bool)
  | moment (s : String)
  | array (items : List Node)
  | table (entries : List (String × Node))
  | tables (elements : List (List (String × Node)))
  deriving Repr, Inhabited

/-- The entries of a table. -/
abbrev Table := List (String × Node)

namespace Table

/-- The value of a key. -/
def get? (t : Table) (name : String) : Option Node :=
  (t.find? fun e => e.1 == name).map Prod.snd

/-- Give a key a value, in place of an older one. -/
def put (t : Table) (name : String) (v : Node) : Table :=
  if t.any fun e => e.1 == name then t.map fun e => if e.1 == name then (name, v) else e
  else t ++ [(name, v)]

/-- Change the table that a path leads to. Through an array of tables the path goes on in the last
element; through any other value there is no path. -/
def alter (f : Table → Option Table) : KeyPath → Table → Option Table
  | [], t => f t
  | name :: rest, t =>
    match t.get? name with
    | some (.table sub) => (alter f rest sub).map fun sub => t.put name (.table sub)
    | some (.tables elements) =>
      match elements.getLast? with
      | some last =>
        (alter f rest last).map fun last => t.put name (.tables (elements.dropLast ++ [last]))
      | none => none
    | _ => none

/-- The table that a path leads to. -/
def follow? : KeyPath → Table → Option Table
  | [], t => some t
  | name :: rest, t =>
    match t.get? name with
    | some (.table sub) => follow? rest sub
    | some (.tables elements) => elements.getLast?.bind (follow? rest)
    | _ => none

/-- Whether a path of plain tables leads to a key. -/
def isDefined (t : Table) : KeyPath → Bool
  | [] => false
  | [name] => (t.get? name).isSome
  | name :: rest =>
    match t.get? name with
    | some (.table sub) => isDefined sub rest
    | _ => false

end Table

/-- A document while it is built. -/
structure Builder where
  /-- The root table. -/
  root : Table := []
  /-- The paths whose last value was an array literal. -/
  arrays : List KeyPath := []
  /-- The paths of implicit tables. -/
  implicit : List KeyPath := []
  /-- All keys so far, the last one first. -/
  keys : List KeyPath := []
  deriving Repr, Inhabited

namespace Builder

/-- Mark a path as implicit. -/
def markImplicit (b : Builder) (p : KeyPath) : Builder :=
  if p ∈ b.implicit then b else { b with implicit := p :: b.implicit }

/-- Take the mark off a path. -/
def unmarkImplicit (b : Builder) (p : KeyPath) : Builder :=
  { b with implicit := b.implicit.filter (· ≠ p) }

/-- The path under which the kind of a value is noted. A key with an empty name shares the place of
the table around it. -/
def kindPath (context : KeyPath) (name : String) : KeyPath :=
  if name ≠ "" then context ++ [name] else if context.isEmpty then [""] else context

/-- Note whether the value at a path is an array literal. -/
def noteArray (b : Builder) (p : KeyPath) (isArray : Bool) : Builder :=
  let others := b.arrays.filter (· ≠ p)
  { b with arrays := if isArray then p :: others else others }

/-- Note a key in the order of writing. -/
def noteKey (b : Builder) (p : KeyPath) : Builder :=
  { b with keys := p :: b.keys }

/-- Give a key of the table at a path its value. A key that has one already keeps it if it is
implicit and changes it if it holds an array literal; any other key has its value for good. -/
def set (b : Builder) (context : KeyPath) (name : String) (v : Node) : Option Builder := do
  let here := context ++ [name]
  let t ← Table.follow? context b.root
  if (t.get? name).isNone then
    let root ← Table.alter (fun t => some (t ++ [(name, v)])) context b.root
    return { b with root }
  else if here ∈ b.arrays then
    -- the array rule comes before the implicit one
    let root ← Table.alter (fun t => some (t.put name v)) context b.root
    return { b with root }.unmarkImplicit here
  else if here ∈ b.implicit then
    return b.unmarkImplicit here
  else none

/-- Make sure that the names of a path lead through tables; missing ones come into being and are
implicit. -/
def establish (b : Builder) (context : KeyPath) : KeyPath → Option Builder
  | [] => some b
  | name :: rest => do
    let t ← Table.follow? context b.root
    let here := context ++ [name]
    if (t.get? name).isSome then b.establish here rest
    else
      let root ← Table.alter (fun t => some (t ++ [(name, .table [])])) context b.root
      { b with root }.markImplicit here |>.establish here rest

/-- Open a table. -/
def openTable (b : Builder) (k : Key) : Option Builder := do
  let b ← b.establish [] k.parents
  b.set k.parents k.last (.table [])

/-- Open a further element of an array of tables. -/
def openElement (b : Builder) (k : Key) : Option Builder := do
  let b ← b.establish [] k.parents
  let grow (t : Table) : Option Table :=
    match t.get? k.last with
    | none => some (t ++ [(k.last, .tables [[]])])
    | some (.tables elements) => some (t.put k.last (.tables (elements ++ [[]])))
    | some _ => none
  let root ← Table.alter grow k.parents b.root
  return { b with root }

/-- Pass through the tables before the last name of a dotted key. Each of them counts as implicit
before it is opened. -/
def passThrough (b : Builder) (context : KeyPath) : KeyPath → Option Builder
  | [] => some b
  | name :: rest => do
    let here := context ++ [name]
    let b ← (b.markImplicit here).openTable { parents := context, last := name }
    b.passThrough here rest

/-- Open the table of an inline literal. Inside an array literal it is one more element. -/
def openInline (b : Builder) (context : KeyPath) (name : String) (inArray : Bool) :
    Option Builder :=
  let k : Key := { parents := context, last := name }
  let b := b.markImplicit k.path
  if inArray then b.openElement k else b.openTable k

/-- Whether a literal is an array. -/
def isArrayLiteral : Literal → Bool
  | .array _ => true
  | _ => false

mutual

/-- The value of a literal that a key of the table at a path is assigned. Inline tables take part
in the building as they are read. -/
def evaluate (b : Builder) (context : KeyPath) (name : String) (inArray : Bool) :
    Literal → Option (Node × Builder)
  | .text s => some (.text s, b)
  | .integer n => some (.integer n, b)
  | .float s => some (.float s, b)
  | .boolean x => some (.boolean x, b)
  | .moment s => some (.moment s, b)
  | .array items => do
    let (nodes, b) ← evaluateItems (b.noteArray (kindPath context name) true) context name items
    return (.array nodes, b)
  | .inline entries => do
    let b ← b.openInline context name inArray
    let (t, b) ← assignEntries b (context ++ [name]) [] entries
    return (.table t, b)

/-- The values of the items of an array literal. -/
def evaluateItems (b : Builder) (context : KeyPath) (name : String) :
    List Literal → Option (List Node × Builder)
  | [] => some ([], b)
  | item :: rest => do
    let (node, b) ← evaluate b context name true item
    let (nodes, b) ← evaluateItems b context name rest
    return (node :: nodes, b)

/-- Assign the entries of an inline table. The table that results holds each value under the last
name of its key. -/
def assignEntries (b : Builder) (context : KeyPath) (t : Table) :
    List (Key × Literal) → Option (Table × Builder)
  | [] => some (t, b)
  | (k, literal) :: rest => do
    let b ← b.passThrough context k.parents
    let inner := context ++ k.parents
    let (node, b) ← evaluate (b.noteKey (inner ++ [k.last])) inner k.last false literal
    let b ← b.set inner k.last node
    let b := b.noteArray (kindPath inner k.last) (isArrayLiteral literal)
    assignEntries b context (t.put k.last node) rest

end

/-- A builder and the table that assignments go to. -/
structure Position where
  /-- The builder. -/
  builder : Builder := {}
  /-- The path of the table that the last header opened. -/
  context : KeyPath := []
  deriving Repr, Inhabited

/-- Carry out a statement. -/
def step (p : Position) : Statement → Option Position
  | .table k => do
    let b ← p.builder.openTable k
    return { builder := (b.noteArray k.path false).noteKey k.path, context := k.path }
  | .element k => do
    let b ← p.builder.openElement k
    return { builder := (b.noteArray k.path false).noteKey k.path, context := k.path }
  | .assign k literal => do
    let (_, b) ← assignEntries p.builder p.context [] [(k, literal)]
    return { p with builder := b }

end Builder

/-- A document. -/
structure Document where
  /-- The root table. -/
  root : Table
  /-- All keys in the order of writing, headers included, one entry for each time. -/
  keys : List KeyPath
  deriving Repr, Inhabited

namespace Document

/-- The document that statements build. -/
def ofStatements? (l : List Statement) : Option Document := do
  let p ← l.foldlM Builder.step {}
  return { root := p.builder.root, keys := p.builder.keys.reverse }

/-- Read a document. -/
def parse? (text : String) : Option Document :=
  (statements? text).bind ofStatements?

end Document

/-- A character of a name inside quotes. -/
def escapeChar (c : Char) : List Char :=
  match c with
  | '\x22' => ['\\', '\x22']
  | '\\' => ['\\', '\\']
  | '\x08' => ['\\', 'b']
  | '\t' => ['\\', 't']
  | '\n' => ['\\', 'n']
  | '\x0c' => ['\\', 'f']
  | '\r' => ['\\', 'r']
  | c => if c.toNat < 0x20 || c.toNat == 0x7f then '\\' :: 'u' :: Text.hexFixed 4 c.toNat else [c]

/-- A name as it is written in a key, in quotes if it needs them. -/
def nameText (name : String) : String :=
  if name ≠ "" && name.toList.all isKeyChar then name
  else String.ofList ('\x22' :: name.toList.flatMap escapeChar ++ ['\x22'])

/-- A path as a dotted key. -/
def pathText (p : KeyPath) : String :=
  String.intercalate "." (p.map nameText)

end CodeEmission.Toml
