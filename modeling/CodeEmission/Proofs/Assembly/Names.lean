import CodeEmission.Assembly.Operand
import CodeEmission.Proofs.Text.Words

/-!
# Names and Numbers in Assembly

An assembler tells a name, a number and an offset by their characters. A name is an identifier, a
number is a run of digits that may have a minus sign before it, and an offset stands behind a symbol
with its sign.

* `Text.integer?_ofInt`: the decimal text of an integer spells it.
* `Dialect.IsIdentifier`: a name that ends where a character of another class stands.
* `Dialect.IsSymbolName`: an identifier that cannot be taken for a number.
* `Dialect.exists_offset`: what stands behind a symbol is its offset, and it starts with no character
  of a name.
-/

namespace CodeEmission

/-! ## Numbers -/

namespace Text

/-- The number that decimal digits spell. -/
def natural? (text : List Char) : Option Nat :=
  if text ≠ [] ∧ text.all Char.isDigit then some (Nat.ofDigitChars 10 text 0) else none

/-- The integer that digits, or digits after a minus sign, spell. -/
def integer? : List Char → Option Int
  | '-' :: text => (natural? text).map fun n => -(n : Int)
  | text => (natural? text).map Int.ofNat

theorem natural?_toDigits (n : Nat) : natural? (Nat.toDigits 10 n) = some n := by
  have hdigits : (Nat.toDigits 10 n).all Char.isDigit = true :=
    List.all_eq_true.mpr fun _ => Nat.isDigit_of_mem_toDigits (by decide) (by decide)
  rw [natural?, if_pos ⟨Nat.toDigits_ne_nil, hdigits⟩, Nat.ofDigitChars_ten_toDigits]

/-- A text that starts with a digit starts with no sign. -/
theorem integer?_toDigits (n : Nat) : integer? (Nat.toDigits 10 n) = some (n : Int) := by
  unfold integer?
  split
  next text heq =>
    have hminus : '-' ∈ Nat.toDigits 10 n := by
      rw [heq]
      exact List.mem_cons_self
    exact absurd (Nat.isDigit_of_mem_toDigits (by decide) (by decide) hminus) (by decide)
  next =>
    rw [natural?_toDigits]
    rfl

/-- The decimal text of an integer spells it. -/
theorem integer?_ofInt (n : Int) : integer? (ofInt n).toList = some n := by
  cases n with
  | ofNat n =>
    rw [ofInt, Nat.toList_repr]
    exact integer?_toDigits n
  | negSucc n =>
    rw [ofInt, String.toList_append, Nat.toList_repr]
    show (natural? (Nat.toDigits 10 (n + 1))).map (fun n => -(n : Int)) = _
    rw [natural?_toDigits]
    rfl

/-- A text that starts with neither a digit nor a minus sign spells no integer. -/
theorem integer?_eq_none_of_head {c : Char} {text : List Char} (hminus : c ≠ '-')
    (hdigit : c.isDigit = false) : integer? (c :: text) = none := by
  unfold integer?
  split
  next heq => exact absurd (List.cons.inj heq).1 hminus
  next => simp [natural?, hdigit]

end Text

namespace Dialect

/-! ## Names -/

/-- Whether a character can stand in a name: a letter, a digit, an underscore, a dot or a dollar sign.
All characters beyond ASCII count as letters. -/
def isNameChar (c : Char) : Bool :=
  c.isAlphanum || c == '_' || c == '.' || c == '$' || 128 ≤ c.toNat

/-- A name is made of letters, digits, underscores, dots and dollar signs. -/
def IsIdentifier (name : String) : Prop :=
  ∀ c ∈ name.toList, isNameChar c = true

/-- Whether a name is an identifier can be computed. -/
instance (name : String) : Decidable (IsIdentifier name) :=
  List.decidableBAll (isNameChar · = true) name.toList

/-- A name does not start as a number does, with a digit or the dollar sign of AT&T notation. -/
def StartsNoNumber (name : String) : Prop :=
  ∀ c ∈ name.toList.head?, c.isDigit = false ∧ c ≠ '$'

/-- Whether a name starts as a number does can be computed. -/
instance (name : String) : Decidable (StartsNoNumber name) :=
  Option.decidableForallMem (p := fun c : Char => c.isDigit = false ∧ c ≠ '$') name.toList.head?

/-- What names a symbol: an identifier that is there and does not start as a number does. -/
def IsSymbolName (name : String) : Prop :=
  name ≠ "" ∧ IsIdentifier name ∧ StartsNoNumber name

/-- Whether a name is that of a symbol can be computed. -/
instance (name : String) : Decidable (IsSymbolName name) :=
  inferInstanceAs (Decidable (_ ∧ _ ∧ _))

/-- What an operand shows as a register or a symbol: characters of names, and the parentheses around
the number of a register. -/
def IsOperandWord (word : String) : Prop :=
  ∀ c ∈ word.toList, isNameChar c = true ∨ c = '(' ∨ c = ')'

/-- Whether a text can be shown in an operand can be computed. -/
instance (word : String) : Decidable (IsOperandWord word) :=
  List.decidableBAll (fun c => isNameChar c = true ∨ c = '(' ∨ c = ')') word.toList

/-- The name of a symbol starts with a character of a name that is no digit. -/
theorem IsSymbolName.exists_cons {name : String} (h : IsSymbolName name) :
    ∃ c rest, name.toList = c :: rest ∧ isNameChar c = true ∧ c.isDigit = false := by
  obtain ⟨hne, hchars, hstart⟩ := h
  cases hlist : name.toList with
  | nil => exact absurd (String.toList_eq_nil_iff.mp hlist) hne
  | cons c rest =>
    refine ⟨c, rest, rfl, hchars c ?_, (hstart c ?_).1⟩
    · rw [hlist]
      exact List.mem_cons_self
    · rw [hlist]
      rfl

/-- Whether a character can stand in a name or a number. -/
def isPlainChar (c : Char) : Bool :=
  isNameChar c || c == '+' || c == '-'

theorem isNameChar_of_isDigit {c : Char} (h : c.isDigit = true) : isNameChar c = true := by
  simp [isNameChar, Char.isAlphanum, h]

theorem isPlainChar_ofInt (n : Int) : ∀ c ∈ (Text.ofInt n).toList, isPlainChar c = true := by
  have hdigits (k : Nat) : ∀ c ∈ Nat.toDigits 10 k, isPlainChar c = true := fun c hc => by
    simp [isPlainChar,
      isNameChar_of_isDigit (Nat.isDigit_of_mem_toDigits (by decide) (by decide) hc)]
  cases n with
  | ofNat k =>
    rw [Text.ofInt, Nat.toList_repr]
    exact hdigits k
  | negSucc k =>
    rw [Text.ofInt, String.toList_append, Nat.toList_repr]
    exact List.forall_mem_cons.mpr ⟨rfl, hdigits (k + 1)⟩

theorem IsIdentifier.isPlainChar {name : String} (h : IsIdentifier name) :
    ∀ c ∈ name.toList, isPlainChar c = true := fun c hc => by
  simp [Dialect.isPlainChar, h c hc]

/-- A mark ends a name. -/
theorem isNameChar_head {mark : Char} (h : isNameChar mark = false) (text : List Char) :
    ∀ c ∈ (mark :: text).head?, isNameChar c = false := by
  simp only [List.head?_cons, Option.mem_some]
  rintro _ rfl
  exact h

/-! ## Offsets -/

/-- The offset that is written after a symbol. One of zero is left out. -/
def offset? : List Char → Option Int
  | [] => some 0
  | '+' :: text => Text.integer? text
  | text => Text.integer? text

/-- Behind a symbol stands its offset, which starts with a sign if it is there. -/
theorem exists_offset (sym : String) (off : Int64) :
    ∃ offset, (symPlus sym off).toList = sym.toList ++ offset ∧ offset? offset = some off.toInt ∧
      (∀ c ∈ offset.head?, isNameChar c = false) ∧ ∀ c ∈ offset, isPlainChar c = true := by
  have hplain := isPlainChar_ofInt off.toInt
  unfold symPlus
  split
  next hpos =>
    exact ⟨'+' :: (Text.ofInt64 off).toList, by simp, Text.integer?_ofInt off.toInt,
      isNameChar_head rfl _, List.forall_mem_cons.mpr ⟨rfl, hplain⟩⟩
  next hpos =>
    split
    next hneg =>
      -- a number below zero starts with its sign, and so it is read as it stands
      obtain ⟨n, hn⟩ : ∃ n, off.toInt = Int.negSucc n :=
        Int.eq_negSucc_of_lt_zero (Int64.lt_iff_toInt_lt.mp hneg)
      have hread := Text.integer?_ofInt off.toInt
      refine ⟨(Text.ofInt64 off).toList, by simp, ?_, ?_, hplain⟩
      · rw [Text.ofInt64]
        rw [hn] at hread ⊢
        rw [Text.ofInt, String.toList_append] at hread ⊢
        exact hread
      · rw [Text.ofInt64, hn, Text.ofInt, String.toList_append]
        exact isNameChar_head rfl _
    next hneg =>
      have hzero : off.toInt = 0 := by
        rw [Int64.not_lt, Int64.le_iff_toInt_le] at hpos hneg
        exact Int.le_antisymm hpos hneg
      exact ⟨[], by simp, by rw [hzero]; rfl, by simp, List.forall_mem_nil _⟩

end Dialect

end CodeEmission
