import CodeEmission.Expr
import CodeEmission.Proofs.Assembly.Names
import CodeEmission.Proofs.Text.Words
import Mathlib.Tactic.Linarith
import Mathlib.Tactic.Ring

/-!
# Values of Written Expressions

An assembler reads the text of an expression from left to right: `+` and `-` bind alike, and a
constant may bring its own sign. The text has no parentheses, so of a sum or difference that is
subtracted only the first term is, and the terms behind it keep the signs that are written.

* `Expr.value?`: what an assembler reads.
* `Expr.value?_render`: it reads the first term and adds the others with their signs.
* `Expr.firstTerm_add_otherTerms`: how far that is from the value of the expression.
* `Expr.written_value_kept_iff`: so the text keeps the value exactly when nothing is left of the
  terms that got a wrong sign.

The text of `a - (b + 1)` is `a-b+1` and has another value (`Expr.subtracted_sum_regrouped`).
-/

namespace CodeEmission

/-- The variant that a name stands for. -/
def Variant.ofName? : String → Option Variant
  | "GOTPCREL" => some gotPcRel
  | "" => some unassigned
  | _ => none

namespace Expr

variable {env : String → Variant → Int} {e : Expr}

/-! ## Reading -/

/-- Whether a character is an operator. -/
def isOperator (c : Char) : Bool :=
  c == '+' || c == '-'

/-- The sign that an operator gives to the term behind it. -/
def sign? : Char → Option Int
  | '+' => some 1
  | '-' => some (-1)
  | _ => none

/-- The value of a symbol and the name of its variant, if there is one. -/
def symbolValue? (env : String → Variant → Int) : List String → Option Int
  | [name] => some (env name .none)
  | [name, variant] => (Variant.ofName? variant).map (env name)
  | _ => none

/-- The value of a term: a constant, or a symbol with its variant behind a mark. -/
def termValue? (env : String → Variant → Int) (term : List Char) : Option Int :=
  match Text.integer? term with
  | some n => some n
  | none => symbolValue? env ((term.splitOn '@').map String.ofList)

/-- The value of operators and terms in turn, added to a value so far. A term ends at the next
operator, but its first character may be a sign of its own. -/
def valueFrom? (env : String → Variant → Int) (acc : Int) : List Char → Option Int
  | [] => some acc
  | [_] => none
  | operator :: first :: rest => do
    let sign ← sign? operator
    let n ← termValue? env (first :: rest.takeWhile fun c => !isOperator c)
    valueFrom? env (acc + sign * n) (rest.dropWhile fun c => !isOperator c)
termination_by text => text.length
decreasing_by
  have hle : (rest.dropWhile fun c => !isOperator c).length ≤ rest.length :=
    (List.dropWhile_sublist _).length_le
  simp only [List.length_cons]
  omega

/-- The value of a text, as an assembler reads it. The first term has no operator before it. -/
def value? (env : String → Variant → Int) (text : String) : Option Int :=
  valueFrom? env 0 ('+' :: text.toList)

/-- A name that can be told from the rest of an expression: it has no operator and no mark of a
variant in it, and it is no number. -/
def IsPlainName (name : String) : Prop :=
  name ≠ "" ∧ (∀ c ∈ name.toList, isOperator c = false ∧ c ≠ '@') ∧
    name.toList.all Char.isDigit = false

/-- Whether a name can be told from the rest can be computed. -/
instance (name : String) : Decidable (IsPlainName name) :=
  haveI : Decidable (∀ c ∈ name.toList, isOperator c = false ∧ c ≠ '@') :=
    List.decidableBAll (fun c => isOperator c = false ∧ c ≠ '@') name.toList
  inferInstanceAs (Decidable (_ ∧ _ ∧ _))

/-! ## Terms -/

/-- One step of reading: an operator and the term behind it. -/
theorem valueFrom?_term {acc sign n : Int} {operator first : Char} {more rest : List Char}
    (hsign : sign? operator = some sign) (hmore : ∀ c ∈ more, isOperator c = false)
    (hrest : ∀ c ∈ rest.head?, isOperator c = true)
    (hterm : termValue? env (first :: more) = some n) :
    valueFrom? env acc (operator :: (first :: more ++ rest)) =
      valueFrom? env (acc + sign * n) rest := by
  have hrun : ∀ c ∈ more, (!isOperator c) = true := by simpa using hmore
  have hend : ∀ c ∈ rest.head?, (!isOperator c) = false := by simpa using hrest
  rw [List.cons_append, valueFrom?, hsign, Text.takeWhile_run hrun hend, hterm,
    Text.dropWhile_run hrun hend]
  rfl

/-- A text that is read as one term: it has a first character, and behind that no operator. -/
def IsTerm (env : String → Variant → Int) (text : List Char) (n : Int) : Prop :=
  ∃ first more, text = first :: more ∧ (∀ c ∈ more, isOperator c = false) ∧
    termValue? env text = some n

theorem not_isOperator_of_isDigit {c : Char} (h : c.isDigit = true) : isOperator c = false := by
  have hplus : c ≠ '+' := fun heq => absurd (heq ▸ h) (by decide)
  have hminus : c ≠ '-' := fun heq => absurd (heq ▸ h) (by decide)
  simp [isOperator, hplus, hminus]

theorem isTerm_ofInt (env : String → Variant → Int) (n : Int) :
    IsTerm env (Text.ofInt n).toList n := by
  have hread : termValue? env (Text.ofInt n).toList = some n := by
    rw [termValue?, Text.integer?_ofInt]
  have hdigits (k : Nat) : ∀ c ∈ Nat.toDigits 10 k, isOperator c = false := fun c hc =>
    not_isOperator_of_isDigit (Nat.isDigit_of_mem_toDigits (by decide) (by decide) hc)
  cases n with
  | ofNat k =>
    rw [Text.ofInt, Nat.toList_repr] at hread ⊢
    -- digits are no operators, and there is a first one
    obtain ⟨first, more, htext⟩ :=
      List.exists_cons_of_ne_nil (Nat.toDigits_ne_nil (b := 10) (n := k))
    refine ⟨first, more, htext, fun c hc => hdigits k c ?_, hread⟩
    exact htext ▸ List.mem_cons_of_mem first hc
  | negSucc k =>
    rw [Text.ofInt, String.toList_append, Nat.toList_repr] at hread ⊢
    exact ⟨'-', Nat.toDigits 10 (k + 1), rfl, hdigits (k + 1), hread⟩

/-- A text that starts with no sign and is not all digits is no constant. -/
theorem integer?_eq_none {text : List Char} (hsign : '-' ∉ text)
    (hdigits : text.all Char.isDigit = false) : Text.integer? text = none := by
  unfold Text.integer?
  split
  next => exact absurd List.mem_cons_self hsign
  next => simp [Text.natural?, hdigits]

/-- A plain name and what stands behind it are read as one term, of the words that they are cut
into. -/
theorem isTerm_of_words (env : String → Variant → Int) {name : String} (h : IsPlainName name)
    {back : List Char} {words : List String} {n : Int} (hback : ∀ c ∈ back, isOperator c = false)
    (hwords : ((name.toList ++ back).splitOn '@').map String.ofList = words)
    (hvalue : symbolValue? env words = some n) : IsTerm env (name.toList ++ back) n := by
  obtain ⟨hne, hplain, hdigits⟩ := h
  have hchars : ∀ c ∈ name.toList ++ back, isOperator c = false := fun c hc =>
    (List.mem_append.mp hc).elim (fun hc => (hplain c hc).1) (hback c)
  have hinteger : Text.integer? (name.toList ++ back) = none := by
    refine integer?_eq_none (fun hminus => ?_) (by simp [hdigits])
    exact absurd (hchars '-' hminus) (by decide)
  have hread : termValue? env (name.toList ++ back) = some n := by
    rw [termValue?, hinteger, hwords]
    exact hvalue
  obtain ⟨first, more, htext⟩ : ∃ first more, name.toList ++ back = first :: more :=
    List.exists_cons_of_ne_nil fun hnil => hne (by simpa using (List.append_eq_nil_iff.mp hnil).1)
  exact ⟨first, more, htext, fun c hc => hchars c (htext ▸ List.mem_cons_of_mem first hc), hread⟩

/-- The text of a symbol is read as that symbol. -/
theorem isTerm_symbol (env : String → Variant → Int) {name : String} (h : IsPlainName name)
    (variant : Variant) : IsTerm env (symbol name variant).render.toList (env name variant) := by
  have hname : '@' ∉ name.toList := fun hmark => (h.2.1 '@' hmark).2 rfl
  by_cases hnone : variant = .none
  · subst hnone
    have hwords : ((String.intercalate "@" [name]).toList.splitOn '@').map String.ofList = [name] :=
      Text.splitOn_intercalate (c := '@') rfl (List.cons_ne_nil _ _) (by simpa using hname)
    rw [String.intercalate_singleton, ← List.append_nil name.toList] at hwords
    rw [render, ← List.append_nil name.toList]
    exact isTerm_of_words env h nofun hwords rfl
  · -- behind the mark stands the name of the variant
    have hrender : (symbol name variant).render.toList =
        name.toList ++ ("@" ++ variant.name).toList := by
      cases variant with
      | none => exact absurd rfl hnone
      | _ => simp [render, String.append_assoc]
    have hvariant : '@' ∉ variant.name.toList ∧
        (("@" ++ variant.name).toList.all fun c => !isOperator c) = true ∧
        Variant.ofName? variant.name = some variant := by
      cases variant with
      | none => exact absurd rfl hnone
      | _ => decide
    have hwords : ((String.intercalate "@" [name, variant.name]).toList.splitOn '@').map
        String.ofList = [name, variant.name] :=
      Text.splitOn_intercalate (c := '@') rfl (List.cons_ne_nil _ _)
        (by simpa using ⟨hname, hvariant.1⟩)
    rw [hrender]
    refine isTerm_of_words env h (by simpa using hvariant.2.1) (by simpa using hwords) ?_
    simp [symbolValue?, hvariant.2.2]

/-! ## The terms of an expression -/

/-- The value of the first term. -/
def firstTerm (env : String → Variant → Int) : Expr → Int
  | symbol name variant => env name variant
  | constant value => value.toInt
  | add lhs _ => lhs.firstTerm env
  | sub lhs _ => lhs.firstTerm env

/-- What the terms behind the first one add up to, with the signs that are written before them. -/
def otherTerms (env : String → Variant → Int) : Expr → Int
  | symbol _ _ => 0
  | constant _ => 0
  | add lhs rhs => lhs.otherTerms env + rhs.firstTerm env + rhs.otherTerms env
  | sub lhs rhs => lhs.otherTerms env - rhs.firstTerm env + rhs.otherTerms env

/-- What is left of the terms that are written with a wrong sign. Of what a difference subtracts,
the terms behind the first one count twice, once for each sign. -/
def drift (env : String → Variant → Int) : Expr → Int
  | symbol _ _ => 0
  | constant _ => 0
  | add lhs rhs => lhs.drift env + rhs.drift env
  | sub lhs rhs => lhs.drift env - rhs.drift env + 2 * rhs.otherTerms env

/-- Every difference subtracts a single term. -/
def SubtractsTerms : Expr → Prop
  | symbol _ _ => True
  | constant _ => True
  | add lhs rhs => lhs.SubtractsTerms ∧ rhs.SubtractsTerms
  | sub lhs (symbol _ _) => lhs.SubtractsTerms
  | sub lhs (constant _) => lhs.SubtractsTerms
  | sub _ (add _ _) => False
  | sub _ (sub _ _) => False

theorem firstTerm_add_otherTerms (env : String → Variant → Int) (e : Expr) :
    e.firstTerm env + e.otherTerms env = e.eval env + e.drift env := by
  induction e with
  | symbol name variant => rfl
  | constant value => rfl
  | add lhs rhs ihl ihr =>
    simp only [firstTerm, otherTerms, eval, drift]
    linarith
  | sub lhs rhs ihl ihr =>
    simp only [firstTerm, otherTerms, eval, drift]
    linarith

/-- Where single terms are subtracted, no term has a wrong sign. -/
theorem drift_eq_zero (h : e.SubtractsTerms) : e.drift env = 0 := by
  induction e with
  | symbol name variant => rfl
  | constant value => rfl
  | add lhs rhs ihl ihr => rw [drift, ihl h.1, ihr h.2, Int.add_zero]
  | sub lhs rhs ihl ihr =>
    -- nothing stands behind the first term of what is subtracted
    cases rhs with
    | symbol name variant => simpa [drift, otherTerms] using ihl h
    | constant value => simpa [drift, otherTerms] using ihl h
    | add _ _ => cases h
    | sub _ _ => cases h

/-- An assembler that has read some terms goes on with those of an expression. -/
theorem valueFrom?_render (hplain : ∀ name ∈ e.symbols, IsPlainName name) {acc sign : Int}
    {operator : Char} (hsign : sign? operator = some sign) {rest : List Char}
    (hrest : ∀ c ∈ rest.head?, isOperator c = true) :
    valueFrom? env acc (operator :: (e.render.toList ++ rest)) =
      valueFrom? env (acc + sign * e.firstTerm env + e.otherTerms env) rest := by
  -- the value so far takes up the first term, and what the others add does not depend on it
  induction e generalizing acc sign operator rest with
  | symbol name variant =>
    obtain ⟨first, more, htext, hmore, hterm⟩ :=
      isTerm_symbol env (hplain name (List.mem_singleton.mpr rfl)) variant
    rw [htext] at hterm ⊢
    rw [valueFrom?_term hsign hmore hrest hterm, firstTerm, otherTerms, Int.add_zero]
  | constant value =>
    obtain ⟨first, more, htext, hmore, hterm⟩ := isTerm_ofInt env value.toInt
    rw [render, Text.ofInt64]
    rw [htext] at hterm ⊢
    rw [valueFrom?_term hsign hmore hrest hterm, firstTerm, otherTerms, Int.add_zero]
  | add lhs rhs ihl ihr =>
    have htext : (add lhs rhs).render.toList ++ rest =
        lhs.render.toList ++ '+' :: (rhs.render.toList ++ rest) := by
      simp [render, List.append_assoc]
    obtain ⟨hleft, hright⟩ := List.forall_mem_append.mp hplain
    rw [htext, ihl hleft hsign (by simp [isOperator]), ihr hright rfl hrest]
    congr 1
    simp only [firstTerm, otherTerms]
    ring
  | sub lhs rhs ihl ihr =>
    have htext : (sub lhs rhs).render.toList ++ rest =
        lhs.render.toList ++ '-' :: (rhs.render.toList ++ rest) := by
      simp [render, List.append_assoc]
    obtain ⟨hleft, hright⟩ := List.forall_mem_append.mp hplain
    rw [htext, ihl hleft hsign (by simp [isOperator]), ihr hright rfl hrest]
    congr 1
    simp only [firstTerm, otherTerms]
    ring

/-- An assembler reads the first term of an expression and adds the others with their signs. -/
theorem value?_render (hplain : ∀ name ∈ e.symbols, IsPlainName name) :
    value? env e.render = some (e.firstTerm env + e.otherTerms env) := by
  have hread : valueFrom? env 0 ('+' :: (e.render.toList ++ [])) =
      valueFrom? env (0 + 1 * e.firstTerm env + e.otherTerms env) [] :=
    valueFrom?_render hplain rfl nofun
  rw [List.append_nil, valueFrom?] at hread
  rw [value?, hread, Int.zero_add, Int.one_mul]

/-- An expression whose names can be told from the rest is read from its text with the value that it
has, but for what is left of the terms that are written with a wrong sign. So the value is kept
exactly when nothing is left of them, and whenever every difference subtracts a single term. -/
theorem written_value_kept_iff (hplain : ∀ name ∈ e.symbols, IsPlainName name)
    (env : String → Variant → Int) :
    value? env e.render = some (e.eval env + e.drift env) ∧
      (value? env e.render = some (e.eval env) ↔ e.drift env = 0) ∧
      (e.SubtractsTerms → value? env e.render = some (e.eval env)) := by
  rw [value?_render hplain, firstTerm_add_otherTerms]
  refine ⟨rfl, ?_, fun hterms => ?_⟩
  · rw [Option.some.injEq]
    omega
  · rw [drift_eq_zero hterms, Int.add_zero]

/-- The difference of two labels and a negative offset from it: all signs stand where they should,
one of them before the digits of a constant. -/
theorem signed_offset_kept :
    let entry := add (sub (ref "LBB0_2") (ref "LJTI0_0")) (constant (-4))
    let places : String → Variant → Int := fun name _ => if name = "LBB0_2" then 20 else 8
    (∀ name ∈ entry.symbols, IsPlainName name) ∧ entry.SubtractsTerms ∧
      entry.render = "LBB0_2-LJTI0_0+-4" ∧ value? places entry.render = some 8 := by
  intro entry places
  have hplain : ∀ name ∈ entry.symbols, IsPlainName name := by decide
  have hterms : entry.SubtractsTerms := ⟨trivial, trivial⟩
  have hvalue : entry.eval places = 8 := by decide
  refine ⟨hplain, hterms, by decide, ?_⟩
  rw [← hvalue]
  exact (written_value_kept_iff hplain places).2.2 hterms

/-- The text of a difference that subtracts a sum subtracts the first term of that sum alone. -/
theorem subtracted_sum_regrouped :
    let difference := sub (ref "a") (add (ref "b") (constant 1))
    difference.render = "a-b+1" ∧ value? (fun _ _ => 0) difference.render = some 1 ∧
      difference.eval (fun _ _ => 0) = -1 := by
  intro difference
  have hplain : ∀ name ∈ difference.symbols, IsPlainName name := by decide
  exact ⟨by decide, value?_render hplain, by decide⟩

end Expr

end CodeEmission
