import CodeEmission.Text.Decimal
import CodeEmission.Text.Json
import CodeEmission.Trace.Level
import CodeEmission.Trace.Timestamp

/-!
# Trace Events

An event opens a span, closes one or marks a point. It is written on one line, either as text for
people or as a JSON object.
-/

namespace CodeEmission.Trace

/-- What an event marks. `unassigned` is an event of no known kind; text gives it no mark. -/
inductive Kind where
  | opens | closes | point | unassigned
  deriving DecidableEq, Repr, Inhabited

namespace Kind

/-- The name of a kind. -/
def name : Kind → String
  | opens => "begin"
  | closes => "end"
  | point => "point"
  | unassigned => "unknown"

/-- The mark before the name of an event. -/
def mark : Kind → String
  | opens => "→ "
  | closes => "← "
  | point => "• "
  | unassigned => ""

end Kind

/-- Keyed remarks, sorted by key, at most one for each. -/
structure Extras where
  /-- The remarks. -/
  entries : List (String × String) := []
  deriving DecidableEq, Repr, Inhabited

namespace Extras

/-- Put a remark into a sorted list, in place of an older one of the same key. -/
def insertEntry (key value : String) : List (String × String) → List (String × String)
  | [] => [(key, value)]
  | (k, v) :: rest =>
    if key < k then (key, value) :: (k, v) :: rest
    else if key = k then (key, value) :: rest
    else (k, v) :: insertEntry key value rest

/-- Add a remark; the last one of a key stays. -/
def insert (x : Extras) (key value : String) : Extras :=
  ⟨insertEntry key value x.entries⟩

/-- Remarks from a list. -/
def ofList (l : List (String × String)) : Extras :=
  l.foldl (fun x e => x.insert e.1 e.2) {}

/-- Whether there are none. -/
def isEmpty (x : Extras) : Bool :=
  x.entries.isEmpty

end Extras

/-- One record of a trace. -/
structure Event where
  /-- Nanoseconds since 1970. -/
  time : Int := 0
  /-- The place in the order of recording. -/
  seq : UInt64 := 0
  /-- What it marks. -/
  kind : Kind
  /-- How fine it is. -/
  scope : Scope
  /-- The span that it opens or closes; zero for a point. -/
  span : UInt64 := 0
  /-- The enclosing span; zero at the root. -/
  parent : UInt64 := 0
  /-- What happened. -/
  name : String
  /-- How it went. -/
  detail : String := ""
  /-- Remarks. -/
  extras : Extras := {}
  deriving DecidableEq, Repr, Inhabited

/-- How events are written. -/
inductive Format where
  | text | lines
  deriving DecidableEq, Repr, Inhabited

/-- The format that the path of a trace file asks for. -/
def Format.ofPath (path : String) : Format :=
  if path.endsWith ".ndjson" || path.endsWith ".jsonl" then .lines else .text

namespace Event

/-- The remarks at the end of a line of text. -/
def extrasText (x : Extras) : String :=
  if x.isEmpty then ""
  else " \x7b" ++ String.intercalate ", " (x.entries.map fun (k, v) => k ++ "=" ++ v) ++ "\x7d"

/-- An event as a line of text: its number, its mark, its name and, if there are any, how it went
and the remarks. What lies inside a span is set in. -/
def text (e : Event) : String :=
  "[" ++ Text.padLeft 6 (Nat.repr e.seq.toNat) ++ "] " ++
    (if e.parent = 0 then "" else "  ") ++ e.kind.mark ++ e.name ++
    (if e.detail = "" then "" else " (" ++ e.detail ++ ")") ++ extrasText e.extras ++ "\n"

/-- A number field that is left out when it is zero. -/
def idField (key : String) (id : UInt64) : List (String × String) :=
  if id = 0 then [] else [(key, Nat.repr id.toNat)]

/-- An event as a JSON object on a line. Zero ids, an empty detail and no remarks are left out. -/
def json (e : Event) : String :=
  Text.jsonLine (
    [("time", Text.jsonString (timestamp e.time)),
      ("seq", Nat.repr e.seq.toNat),
      ("kind", Text.jsonString e.kind.name),
      ("scope", Text.jsonString e.scope.name)] ++
    idField "span_id" e.span ++ idField "parent_id" e.parent ++
    [("name", Text.jsonString e.name)] ++
    (if e.detail = "" then [] else [("detail", Text.jsonString e.detail)]) ++
    (if e.extras.isEmpty then []
      else [("extra",
        Text.jsonLine (e.extras.entries.map fun (k, v) => (k, Text.jsonString v)))])) ++ "\n"

/-- An event in a format. -/
def render (f : Format) (e : Event) : String :=
  match f with
  | .text => e.text
  | .lines => e.json

end Event

end CodeEmission.Trace
