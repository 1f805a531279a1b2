import CodeEmission.Platform.Triple
import CodeEmission.Text.Decimal

/-!
# Relocatable Expressions

The expressions that stand for addresses in assembly text and in object files: references to
symbols, integer constants, sums and differences. Their text has no parentheses.

`Expr.personality` is the reference to an exception personality routine through its slot in the
global offset table. The unwinder reads the slot relative to the point four bytes past the field,
so the expression adds four. It makes sense under DWARF unwinding on Mach-O only;
`Expr.personality?` checks that.
-/

namespace CodeEmission

/-- How a symbol reference is relocated. `unassigned` is a way without a name. -/
inductive Variant where
  | none | gotPcRel | unassigned
  deriving DecidableEq, Repr, Inhabited

/-- The name of a variant. -/
def Variant.name : Variant → String
  | none => ""
  | gotPcRel => "GOTPCREL"
  | unassigned => ""

/-- A relocatable expression. -/
inductive Expr where
  | symbol (name : String) (variant : Variant)
  | constant (value : Int64)
  | add (lhs rhs : Expr)
  | sub (lhs rhs : Expr)
  deriving DecidableEq, Repr, Inhabited

namespace Expr

/-- A plain reference to a symbol. -/
def ref (name : String) : Expr := symbol name .none

/-- The text of an expression. -/
def render : Expr → String
  | symbol name .none => name
  | symbol name variant => name ++ "@" ++ variant.name
  | constant value => Text.ofInt64 value
  | add lhs rhs => lhs.render ++ "+" ++ rhs.render
  | sub lhs rhs => lhs.render ++ "-" ++ rhs.render

/-- The symbols that an expression refers to, from left to right. -/
def symbols : Expr → List String
  | symbol name _ => [name]
  | constant _ => []
  | add lhs rhs => lhs.symbols ++ rhs.symbols
  | sub lhs rhs => lhs.symbols ++ rhs.symbols

/-- The value of an expression when every symbol, under its variant, has an integer value. -/
def eval (env : String → Variant → Int) : Expr → Int
  | symbol name variant => env name variant
  | constant value => value.toInt
  | add lhs rhs => lhs.eval env + rhs.eval env
  | sub lhs rhs => lhs.eval env - rhs.eval env

/-- The reference to a personality routine through the global offset table. -/
def personality (sym : String) : Expr :=
  add (symbol sym .gotPcRel) (constant 4)

end Expr

/-- What the reference to a personality routine depends on. -/
structure UnwindContext where
  /-- The object format of the target. -/
  format : ObjectFormat
  /-- Whether exceptions unwind through call-frame information. -/
  frameUnwind : Bool
  deriving DecidableEq, Repr

/-- Why a personality reference was refused. -/
inductive PersonalityError where
  | misuse
  deriving DecidableEq, Repr

/-- The wording of a refusal. -/
def PersonalityError.message : PersonalityError → String
  | misuse => "GOT-relative personality expression requires DWARF CFI unwinding on Mach-O"

/-- The reference to a personality routine, where the target has one of that form. -/
def Expr.personality? (sym : String) : Option UnwindContext → Except PersonalityError Expr
  | some ⟨.macho, true⟩ => .ok (personality sym)
  | _ => .error .misuse

end CodeEmission
