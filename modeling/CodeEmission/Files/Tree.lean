import CodeEmission.Files.System

/-!
# A Tree of Files

A file system as a value: which places hold directories and which hold files, with their contents.
Paths are followed one component at a time, and every component but the last has to lead to a
directory.

Every file has a serial number that stays the same as long as the file lives. An open file is known
by that number, so what is written to it after another file took its place is lost with it.

`Tree.system` gives the operations of the tree as a `FileSystem`. It can be told to let operations
fail, which shows what a command does then.
-/

namespace CodeEmission

/-- A place in a tree: the names on the way to it, the innermost first. -/
abbrev Place := List String

/-- What a place holds. -/
inductive Entry where
  | directory
  | file (serial : Nat) (content : List UInt8)
  deriving DecidableEq, Repr, Inhabited

/-- A tree of files. The root is a directory and has no entry of its own. -/
structure Tree where
  /-- What the places hold. -/
  entries : List (Place × Entry) := []
  /-- The working directory. -/
  current : Place := []
  /-- How many files were made so far. -/
  made : Nat := 0
  deriving Repr, Inhabited

namespace Tree

/-- What a place holds, if anything. -/
def get? (t : Tree) : Place → Option Entry
  | [] => some .directory
  | p => t.entries.lookup p

/-- Put an entry at a place. -/
def set (t : Tree) (p : Place) (e : Entry) : Tree :=
  { t with entries := (p, e) :: t.entries.filter fun x => x.1 ≠ p }

/-- Take away the entry at a place. -/
def erase (t : Tree) (p : Place) : Tree :=
  { t with entries := t.entries.filter fun x => x.1 ≠ p }

/-- Taking away one key leaves the values of the others. -/
theorem lookup_filter_ne {p q : Place} (h : q ≠ p) (l : List (Place × Entry)) :
    (l.filter fun x => x.1 ≠ p).lookup q = l.lookup q := by
  induction l with
  | nil => rfl
  | cons x rest ih =>
    obtain ⟨r, e⟩ := x
    by_cases hr : r = p
    · rw [List.filter_cons_of_neg (by simp [hr]), List.lookup_cons, hr, beq_false_of_ne h, ih]
    · rw [List.filter_cons_of_pos (by simp [hr]), List.lookup_cons, List.lookup_cons, ih]

/-- Taking away a key leaves no value for it. -/
theorem lookup_filter_self (p : Place) (l : List (Place × Entry)) :
    (l.filter fun x => x.1 ≠ p).lookup p = none := by
  induction l with
  | nil => rfl
  | cons x rest ih =>
    obtain ⟨r, e⟩ := x
    by_cases hr : r = p
    · rw [List.filter_cons_of_neg (by simp [hr]), ih]
    · rw [List.filter_cons_of_pos (by simp [hr]), List.lookup_cons,
        beq_false_of_ne (Ne.symm hr), ih]

/-- A place below the root holds what its entry says. -/
theorem get?_eq_lookup (t : Tree) {p : Place} (hp : p ≠ []) :
    t.get? p = t.entries.lookup p := by
  cases p with
  | nil => exact absurd rfl hp
  | cons a r => rfl

/-- A place holds what was put there. -/
theorem get?_set_self (t : Tree) {p : Place} (hp : p ≠ []) (e : Entry) :
    (t.set p e).get? p = some e := by
  rw [get?_eq_lookup _ hp, set, List.lookup_cons, beq_self_eq_true]

/-- Putting an entry at a place leaves the other places alone. -/
theorem get?_set_of_ne (t : Tree) {p q : Place} (h : q ≠ p) (e : Entry) :
    (t.set p e).get? q = t.get? q := by
  by_cases hq : q = []
  · subst hq; rfl
  · rw [get?_eq_lookup _ hq, get?_eq_lookup _ hq, set, List.lookup_cons, beq_false_of_ne h]
    exact lookup_filter_ne h t.entries

/-- A place that was cleared holds nothing. -/
theorem get?_erase_self (t : Tree) {p : Place} (hp : p ≠ []) : (t.erase p).get? p = none := by
  rw [get?_eq_lookup _ hp]
  exact lookup_filter_self p t.entries

/-- Clearing a place leaves the other places alone. -/
theorem get?_erase_of_ne (t : Tree) {p q : Place} (h : q ≠ p) :
    (t.erase p).get? q = t.get? q := by
  by_cases hq : q = []
  · subst hq; rfl
  · rw [get?_eq_lookup _ hq, get?_eq_lookup _ hq]
    exact lookup_filter_ne h t.entries

/-- Whether a directory holds anything. -/
def isOccupied (t : Tree) (p : Place) : Bool :=
  t.entries.any fun x => x.1.tail = p && x.1 ≠ []

/-- The path of a place from the root. -/
def pathOf (p : Place) : String :=
  "/" ++ String.intercalate "/" p.reverse

/-- The greatest number of bytes of a name. -/
def nameLimit : Nat := 255

/-- The number of bytes that a path has to stay below. -/
def pathLimit : Nat := 4096

/-- Follow components from a place, which has to be a directory if there are any. -/
def follow (t : Tree) : Place → List String → Except FileCause Place
  | p, [] => .ok p
  | p, name :: rest =>
    match t.get? p with
    | none => .error .notFound
    | some (.file _ _) => .error .notDirectory
    | some .directory =>
      if nameLimit < name.utf8ByteSize then .error .nameTooLong
      else if name = "" ∨ name = "." then t.follow p rest
      else if name = ".." then t.follow p.tail rest
      else t.follow (name :: p) rest

/-- Where following a path starts. Some texts are no paths at all. -/
def startOf (t : Tree) (path : String) : Except FileCause Place :=
  if path.toList.contains '\x00' then .error .invalid
  else if path = "" then .error .notFound
  else if pathLimit ≤ path.utf8ByteSize then .error .nameTooLong
  else .ok (if Path.isRooted path then [] else t.current)

/-- The place that a path leads to. It need not hold anything. -/
def locate (t : Tree) (path : String) : Except FileCause Place := do
  t.follow (← t.startOf path) (Path.pieces path)

/-- A path in its last name and what stands before it. -/
structure LastName where
  /-- The components before the last name. -/
  before : List String
  /-- The last name; none if the path has slashes only. -/
  name? : Option String
  /-- Whether slashes follow it, so that it has to be a directory. -/
  slashed : Bool
  deriving DecidableEq, Repr

/-- The last name of a path. -/
def lastName (path : String) : LastName :=
  let reversed := (Path.pieces path).reverse
  match reversed.dropWhile (· = "") with
  | name :: before =>
    { before := before.reverse, name? := some name, slashed := reversed.head? = some "" }
  | [] => { before := [], name? := none, slashed := true }

/-- The directory that a path's last name stands in. -/
def locateParent (t : Tree) (path : String) : Except FileCause (Place × LastName) := do
  let last := lastName path
  let parent ← t.follow (← t.startOf path) last.before
  return (parent, last)

/-- Whether a path leads to a directory. -/
def isDirectory (t : Tree) (path : String) : Except FileCause Bool := do
  match t.get? (← t.locate path) with
  | none => throw .notFound
  | some .directory => return true
  | some (.file _ _) => return false

/-- The content of the file that a path leads to. -/
def read (t : Tree) (path : String) : Except FileCause (List UInt8) := do
  match t.get? (← t.locate path) with
  | none => throw .notFound
  | some .directory => throw .isDirectory
  | some (.file _ content) => return content

/-- Make an empty file, or empty the one that is there. The result is its serial number. -/
def create (t : Tree) (path : String) : Except FileCause (Nat × Tree) := do
  let (parent, last) ← t.locateParent path
  match last.name? with
  | none => throw .isDirectory
  | some name =>
    if last.slashed ∨ name = "." ∨ name = ".." then throw .isDirectory
    let place ← t.follow parent [name]
    match t.get? place with
    | some .directory => throw .isDirectory
    | some (.file serial _) => return (serial, t.set place (.file serial []))
    | none => return (t.made, { t.set place (.file t.made []) with made := t.made + 1 })

/-- Make an empty file where nothing is yet. The result is its serial number. -/
def createNew (t : Tree) (path : String) : Except FileCause (Nat × Tree) := do
  if (t.get? (← t.locate path)).isSome then throw .occupied
  t.create path

/-- Add to the end of the file of a serial number, if it still lives. -/
def append (t : Tree) (serial : Nat) (data : List UInt8) : Tree :=
  { t with entries := t.entries.map fun
      | (p, .file s content) =>
        (p, .file s (if s = serial then content ++ data else content))
      | x => x }

/-- Make a directory. -/
def makeDirectory (t : Tree) (path : String) : Except FileCause Tree := do
  let (parent, last) ← t.locateParent path
  match last.name? with
  | none => throw .occupied
  | some name =>
    let place ← t.follow parent [name]
    if (t.get? place).isSome then throw .occupied
    return t.set place .directory

/-- Move a file onto a path that leads to no directory. -/
def rename (t : Tree) (source target : String) : Except FileCause Tree := do
  if (t.isDirectory target).toOption = some true then throw .occupied
  let origin ← t.locate source
  let place ← t.locate target
  match t.get? origin with
  | none => throw .notFound
  | some .directory => throw .invalid
  | some (.file serial content) =>
    if origin = place then return t
    return (t.erase origin).set place (.file serial content)

/-- Remove a file or an empty directory. -/
def remove (t : Tree) (path : String) : Except FileCause Tree := do
  let (parent, last) ← t.locateParent path
  match last.name? with
  | none => throw .busy
  | some "." =>
    let _ ← t.follow parent ["."]
    throw .invalid
  | some ".." =>
    let _ ← t.follow parent [".."]
    throw .notEmpty
  | some name =>
    let place ← t.follow parent [name]
    match t.get? place with
    | none => throw .notFound
    | some (.file _ _) => if last.slashed then throw .notDirectory else return t.erase place
    | some .directory => if t.isOccupied place then throw .notEmpty else return t.erase place

/-- A path in a directory for a temporary file. -/
def temporaryPath (directory : String) (n : Nat) : String :=
  (if directory = "/" then "" else directory) ++ "/.mcemit-" ++ Nat.repr n

/-- The first path from a number on that leads nowhere, if one is found before the fuel is used
up. -/
def freshPathFrom (t : Tree) (directory : String) : Nat → Nat → String
  | 0, n => temporaryPath directory n
  | fuel + 1, n =>
    match t.isDirectory (temporaryPath directory n) with
    | .ok _ => t.freshPathFrom directory fuel (n + 1)
    | .error _ => temporaryPath directory n

/-- A path for a new file in a directory. One of the paths tried leads nowhere, since there are
more of them than entries. -/
def freshPath (t : Tree) (directory : String) : String :=
  t.freshPathFrom directory (t.entries.length + 1) 0

/-- The paths and contents of all files. -/
def files (t : Tree) : List (String × List UInt8) :=
  t.entries.filterMap fun
    | (p, .file _ content) => some (pathOf p, content)
    | (_, .directory) => none

/-- Operations that are to fail, with the causes. A failing write first keeps some of the bytes. -/
structure Faults where
  /-- The failure of making a directory. -/
  makeDirectory? : Option FileCause := none
  /-- The failure of making a file. -/
  create? : Option FileCause := none
  /-- How many bytes a write keeps before it fails, and the failure. -/
  write? : Option (Nat × FileCause) := none
  /-- The failure of closing a file. -/
  close? : Option FileCause := none
  /-- The failure of moving a file. -/
  rename? : Option FileCause := none
  /-- The failure of removing a file. -/
  remove? : Option FileCause := none
  deriving DecidableEq, Repr, Inhabited

/-- A look at the tree. -/
def look {α : Type} (f : Tree → α) : StateM Tree α := fun t => (f t, t)

/-- A change of the tree. One that fails changes nothing. -/
def change {α : Type} (fault? : Option FileCause) (f : Tree → Except FileCause (α × Tree)) :
    StateM Tree (Except FileCause α) := fun t =>
  match fault? with
  | some cause => (.error cause, t)
  | none =>
    match f t with
    | .ok (a, t') => (.ok a, t')
    | .error cause => (.error cause, t)

/-- A write to an open file. -/
def writeOpen (fault? : Option (Nat × FileCause)) (serial : Nat) (data : List UInt8) :
    StateM Tree (Except FileCause Unit) := fun t =>
  match fault? with
  | some (kept, cause) => (.error cause, t.append serial (data.take kept))
  | none => (.ok (), t.append serial data)

/-- The operations of a tree. Open files are known by their serial numbers. -/
def system (faults : Faults := {}) : FileSystem (StateM Tree) Nat where
  workingDirectory := look fun t => pathOf t.current
  isDirectory path := look fun t => t.isDirectory path
  read path := look fun t => t.read path
  create path := change faults.create? fun t => t.create path
  createNew path := change faults.create? fun t => t.createNew path
  freshPath directory := look fun t => t.freshPath directory
  write := writeOpen faults.write?
  close _ := change faults.close? fun t => .ok ((), t)
  makeDirectory path := change faults.makeDirectory? fun t => (t.makeDirectory path).map ((), ·)
  rename source target := change faults.rename? fun t => (t.rename source target).map ((), ·)
  remove path := change faults.remove? fun t => (t.remove path).map ((), ·)

/-- Put a file at a path, in directories that are made if need be. A path that ends in a slash
stands for a directory. -/
def put (t : Tree) (path : String) (content : List UInt8) : Tree :=
  if (lastName path).slashed then
    ((system.makeDirectories (Path.leading (Path.clean path))).run.run t).2
  else ((system.writeAtomic path content).run t).2

/-- A tree with the given files below a directory, which is the working directory. -/
def ofFiles (directory : Place) (files : List (String × List UInt8)) : Tree :=
  files.foldl (fun t (path, content) => t.put path content)
    { entries := [(directory, .directory)], current := directory }

/-- The files of a tree that another tree does not have, or has with another content. -/
def filesSince (before after : Tree) : List (String × List UInt8) :=
  after.files.filter fun (path, content) => before.files.lookup path ≠ some content

end Tree

end CodeEmission
