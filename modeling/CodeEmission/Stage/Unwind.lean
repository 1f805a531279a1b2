import CodeEmission.Stage.Basic

/-!
# Unwind Records

Attaches to every function an unwind record of the platform's exception model, with the expression
that reaches its personality routine. A personality routine on a platform without an exception model
is a fault; the function then keeps an empty record.
-/

namespace CodeEmission.UnwindStage

/-- The records that an exception model uses. -/
def kindOf : ExceptionModel → UnwindKind
  | .none => .none
  | .dwarfCFI => .cfi
  | .win64 => .seh

/-- The unwind record of a function. -/
def record (p : Profile) (personality : String) : CodeEmission.Unwind :=
  if personality = "" ∨ kindOf p.exceptions = .none then { kind := kindOf p.exceptions }
  else
    let e := p.personalityExpr personality
    { kind := kindOf p.exceptions, personality := e.render, personalitySym := personality
      personalitySyms := e.symbols }

/-- The fault of a personality routine where exceptions have no model. -/
def fault? (p : Profile) (f : Func) : Option StageFault :=
  if f.personality ≠ "" ∧ kindOf p.exceptions = .none then
    some (.personalityUnsupported f.name f.personality p.bucket)
  else none

/-- Attach unwind records to a unit's functions. -/
def run (p : Profile) (u : CodeUnit) : StageOutcome :=
  { unit := { u with funcs := u.funcs.map fun f => { f with unwind := record p f.personality } }
    faults := u.funcs.filterMap (fault? p) }

/-- The stage. -/
def stage : Stage := { name := "unwind", run }

end CodeEmission.UnwindStage
