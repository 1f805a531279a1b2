import CodeEmission.CodeUnit.Verify
import CodeEmission.Platform.Profile

/-!
# Stages

A stage changes a unit under a profile. It may find faults on the way; then it still leaves the
changed unit behind, and its caller decides what becomes of it. Some stages have a check of their
own, which looks at the unit after the stage, and some note what they did symbol by symbol.
-/

namespace CodeEmission

/-- What a stage can find wrong. `custom` is a fault that a stage of a caller words itself. -/
inductive StageFault where
  | weakUnsupported (kind : EntityKind) (name : String) (bucket : Bucket)
  | symbolWithBase (func : String) (inst : Nat) (sym base : String)
  | wideDatum (data : String) (value : Nat)
  | noSection (kind : EntityKind) (name : String)
  | personalityUnsupported (func personality : String) (bucket : Bucket)
  | custom (text : String)
  deriving DecidableEq, Repr

/-- The wording of a fault. -/
def StageFault.message : StageFault → String
  | weakUnsupported kind name bucket =>
    kind.word ++ " " ++ Text.quote name ++ ": weak linkage unsupported on " ++ bucket.render
  | symbolWithBase func inst sym base =>
    "func " ++ Text.quote func ++ ": inst " ++ Nat.repr inst ++ ": symbol " ++ Text.quote sym ++
      " with base register %" ++ base ++ " is not addressable on x86_64"
  | wideDatum data value =>
    "data " ++ Text.quote data ++ ": value " ++ Nat.repr value ++ " still 8 bytes wide"
  | noSection kind name => kind.word ++ " " ++ Text.quote name ++ " has no section"
  | personalityUnsupported func personality bucket =>
    "func " ++ Text.quote func ++ ": personality " ++ Text.quote personality ++
      " without an exception model on " ++ bucket.render
  | custom text => text

/-- Several faults, one a line. -/
def StageFault.messages (faults : List StageFault) : String :=
  String.intercalate "\n" (faults.map StageFault.message)

/-- A note that a stage leaves in the trace: a symbol and the name it was made from. -/
structure SymbolNote where
  /-- The symbol. -/
  symbol : String
  /-- The name it was made from. -/
  name : String
  deriving DecidableEq, Repr

/-- What a stage leaves behind. The stage has failed when there are faults. -/
structure StageOutcome where
  /-- The unit after the stage. -/
  unit : CodeUnit
  /-- What was wrong, in the order it was found. -/
  faults : List StageFault := []
  /-- Notes for the trace, in order. -/
  notes : List SymbolNote := []
  deriving DecidableEq, Repr

/-- A named step of the emission pipeline. -/
structure Stage where
  /-- The name by which options refer to the stage. -/
  name : String
  /-- The change. -/
  run : Profile → CodeUnit → StageOutcome
  /-- The stage's own check of the unit after it, if it has one. -/
  check : Option (Profile → CodeUnit → Option StageFault) := none

end CodeEmission
