import CodeEmission.Stage.Layout
import CodeEmission.Stage.Legalize
import CodeEmission.Stage.Mangle
import CodeEmission.Stage.Unwind

/-!
# The Standard Stages

Legalize, mangle, layout and unwind, in the order in which a driver runs them.
-/

namespace CodeEmission.Stage

/-- The stages of every target that this program emits for. -/
def standard : List Stage :=
  [Legalize.stage, Mangle.stage, Layout.stage, UnwindStage.stage]

/-- The standard stage of a given name. -/
def ofName? (name : String) : Option Stage :=
  standard.find? fun s => s.name = name

end CodeEmission.Stage
