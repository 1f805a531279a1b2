import CodeEmission.Text.LowerCase
import CodeEmission.Text.Quoted

/-!
# Trace Levels and Scopes

A scope says how fine an event is: a command, a stage, a unit or a single symbol. A level says how
fine the events are that get recorded.
-/

namespace CodeEmission.Trace

/-- The granularity of an event. A lower rank is coarser. -/
structure Scope where
  /-- The rank. -/
  rank : UInt8
  deriving DecidableEq, Repr, Inhabited

namespace Scope

/-- One command. -/
def driver : Scope := ⟨1⟩

/-- One stage of the pipeline. -/
def stage : Scope := ⟨2⟩

/-- One compilation unit. -/
def unit : Scope := ⟨3⟩

/-- One function or data object. -/
def symbol : Scope := ⟨4⟩

/-- The name of a scope. Ranks without a meaning have one name together. -/
def name (s : Scope) : String :=
  match s.rank with
  | 1 => "driver"
  | 2 => "stage"
  | 3 => "unit"
  | 4 => "symbol"
  | _ => "unknown"

/-- The scope of a given name. A name that stands for none gives the coarsest rank. -/
def ofName (s : String) : Scope :=
  match s with
  | "driver" => driver
  | "stage" => stage
  | "unit" => unit
  | "symbol" => symbol
  | _ => ⟨0⟩

end Scope

/-- How much is recorded. `unassigned` is a level that records nothing and still counts as on. -/
inductive Level where
  | off | error | phase | detail | debug | unassigned
  deriving DecidableEq, Repr, Inhabited

namespace Level

/-- The name of a level. -/
def name : Level → String
  | off => "off"
  | error => "error"
  | phase => "phase"
  | detail => "detail"
  | debug => "debug"
  | unassigned => "unknown"

/-- Whether events of a scope are recorded. -/
def admits (l : Level) (s : Scope) : Bool :=
  match l with
  | error | phase => s.rank ≤ Scope.stage.rank
  | detail => s.rank ≤ Scope.unit.rank
  | debug => true
  | off | unassigned => false

/-- Whether tracing is on at all. -/
def isOn (l : Level) : Bool :=
  l != off

/-- The level that a name in any case stands for. -/
def ofName? (s : String) : Option Level :=
  match Text.lower s with
  | "off" => some off
  | "error" => some error
  | "phase" => some phase
  | "detail" => some detail
  | "debug" => some debug
  | _ => none

end Level

/-- Where events are kept: written as they come, held in memory, or both. -/
inductive Storage where
  | stream | ring | both | unassigned
  deriving DecidableEq, Repr, Inhabited

namespace Storage

/-- The name of a storage mode. -/
def name : Storage → String
  | stream => "stream"
  | ring => "ring"
  | both => "both"
  | unassigned => "unknown"

/-- The storage mode that a name in any case stands for. -/
def ofName? (s : String) : Option Storage :=
  match Text.lower s with
  | "stream" => some stream
  | "ring" => some ring
  | "both" => some both
  | _ => none

end Storage

/-- Why a trace could not be set up from its description. -/
inductive SetupError where
  | badLevel (text : String)
  | badStorage (text : String)
  | unassignedStorage
  deriving DecidableEq, Repr

/-- The wording of a failure. -/
def SetupError.message : SetupError → String
  | badLevel text =>
    "invalid trace level: " ++ Text.quote text ++ " (expected: off|error|phase|detail|debug)"
  | badStorage text =>
    "invalid storage mode: " ++ Text.quote text ++ " (expected: stream|ring|both)"
  | unassignedStorage => "unknown storage mode: " ++ Storage.unassigned.name

/-- Read a level. -/
def Level.parse (s : String) : Except SetupError Level :=
  match Level.ofName? s with
  | some l => .ok l
  | none => .error (.badLevel s)

/-- Read a storage mode. -/
def Storage.parse (s : String) : Except SetupError Storage :=
  match Storage.ofName? s with
  | some m => .ok m
  | none => .error (.badStorage s)

end CodeEmission.Trace
