import CodeEmission.Proofs.Platform.Conventions
import Mathlib.Algebra.GroupWithZero.Nat
import Mathlib.Algebra.Order.BigOperators.Group.List

/-!
# Line Feeds in Texts

A text that is written out line by line stays on its line when it has no line feed.
`Text.lineFeeds` counts them.

* `Text.lineFeeds_append`, `Text.lineFeeds_intercalate`: the line feeds of a text are those of its parts.
* `Text.lineFeeds_quote`: a quoted text has none, and neither have numbers.
* `Profile.IsUsual.lineFeeds_globalMark` and its like: what a profile puts around names has none.
-/

namespace CodeEmission

namespace Text

/-- The number of line feeds in a text. -/
def lineFeeds (s : String) : Nat :=
  s.toList.count '\n'

theorem lineFeeds_eq_zero_iff {s : String} : lineFeeds s = 0 ↔ '\n' ∉ s.toList :=
  List.count_eq_zero

/-- For a text that is written out the premise can be decided. -/
theorem lineFeeds_of_not_mem {s : String} (h : '\n' ∉ s.toList) : lineFeeds s = 0 :=
  lineFeeds_eq_zero_iff.mpr h

@[simp]
theorem lineFeeds_empty : lineFeeds "" = 0 := rfl

@[simp]
theorem lineFeeds_append (a b : String) : lineFeeds (a ++ b) = lineFeeds a + lineFeeds b := by
  simp [lineFeeds]

theorem lineFeeds_intercalate {sep : String} (hsep : lineFeeds sep = 0) (parts : List String) :
    lineFeeds (String.intercalate sep parts) = (parts.map lineFeeds).sum := by
  induction parts with
  | nil => rfl
  | cons part rest ih =>
    cases rest with
    | nil => simp
    | cons next later =>
      rw [String.intercalate_cons_cons, lineFeeds_append, lineFeeds_append, hsep, ih]
      simp

@[simp]
theorem lineFeeds_repr (n : Nat) : lineFeeds (Nat.repr n) = 0 := by
  rw [lineFeeds_eq_zero_iff, Nat.toList_repr]
  intro hmem
  exact absurd (Nat.isDigit_of_mem_toDigits (by decide) (by decide) hmem) (by decide)

@[simp]
theorem lineFeeds_ofInt (n : Int) : lineFeeds (ofInt n) = 0 := by
  cases n with
  | ofNat n => exact lineFeeds_repr n
  | negSucc n =>
    rw [ofInt, lineFeeds_append, lineFeeds_repr]
    rfl

@[simp]
theorem lineFeeds_ofInt64 (n : Int64) : lineFeeds (ofInt64 n) = 0 :=
  lineFeeds_ofInt n.toInt

/-- A hexadecimal digit is no line feed. -/
theorem hexDigit_ne_lineFeed {n : Nat} (h : n < 16) : hexDigit n ≠ '\n' := by
  decide +revert

theorem lineFeed_not_mem_hexFixed (width n : Nat) : '\n' ∉ hexFixed width n := by
  induction width generalizing n with
  | zero => simp [hexFixed]
  | succ width ih =>
    have hdigit := hexDigit_ne_lineFeed (Nat.mod_lt n (by decide : 0 < 16))
    simp [hexFixed, ih, hdigit.symm]

/-- A quoted character is written without a line feed: the line feed itself is escaped, as is every
other character that cannot be shown. -/
theorem lineFeed_not_mem_quoteChar (c : Char) : '\n' ∉ quoteChar c := by
  unfold quoteChar
  split
  · decide
  split
  · decide
  split
  next hprintable =>
    rintro hmem
    rw [← List.mem_singleton.mp hmem] at hprintable
    exact absurd hprintable (by decide)
  next =>
    split
    case h_8 =>
      -- a character without a letter of its own is written with digits
      split
      · simp [lineFeed_not_mem_hexFixed]
      split
      · simp [lineFeed_not_mem_hexFixed]
      · simp [lineFeed_not_mem_hexFixed]
    all_goals decide

/-- A quoted text stays on its line. -/
@[simp]
theorem lineFeeds_quote (s : String) : lineFeeds (quote s) = 0 := by
  rw [lineFeeds_eq_zero_iff, quote]
  simp [lineFeed_not_mem_quoteChar]

end Text

namespace Profile

variable {p : Profile}

namespace IsUsual

theorem lineFeeds_comment (h : p.IsUsual) : Text.lineFeeds p.comment = 0 := by
  rcases h.comment with hcomment | hcomment <;> rw [hcomment] <;> rfl

theorem lineFeeds_globalMark (h : p.IsUsual) : Text.lineFeeds p.globalMark = 0 := by
  rcases h.globalMark with hmark | hmark <;> rw [hmark] <;> rfl

theorem lineFeeds_privateMark (h : p.IsUsual) : Text.lineFeeds p.privateMark = 0 := by
  rcases h.privateMark with hmark | hmark <;> rw [hmark] <;> rfl

theorem lineFeeds_enterText (h : p.IsUsual) : Text.lineFeeds p.textSectionDirective = 0 := by
  rcases h.enterText with henter | henter <;> rw [henter] <;> rfl

theorem lineFeeds_enterData (h : p.IsUsual) : Text.lineFeeds p.dataSectionDirective = 0 := by
  rcases h.enterData with henter | henter <;> rw [henter] <;> rfl

theorem lineFeeds_nonexecStack (h : p.IsUsual) : Text.lineFeeds p.nonexecStackSection = 0 := by
  rcases h.nonexecStack with hstack | hstack <;> rw [hstack] <;> rfl

theorem lineFeeds_globalDirective (h : p.IsUsual) : Text.lineFeeds p.globalDirective = 0 := by
  rw [h.globalDirective]
  rfl

theorem lineFeeds_weakRefDirective (h : p.IsUsual) : Text.lineFeeds p.weakRefDirective = 0 := by
  rcases h.weakReference with hweak | hweak | hweak <;> rw [hweak] <;> rfl

theorem lineFeeds_weakDefDirective (h : p.IsUsual) : Text.lineFeeds p.weakDefDirective = 0 := by
  rcases h.weakDefinition with hweak | hweak <;> rw [hweak] <;> rfl

theorem lineFeeds_alignDirective (h : p.IsUsual) : Text.lineFeeds p.alignDirective = 0 := by
  rcases h.align with ⟨halign, -⟩ | ⟨halign, -⟩ <;> rw [halign] <;> rfl

theorem lineFeeds_data32Directive (h : p.IsUsual) : Text.lineFeeds p.data32Directive = 0 := by
  rw [h.data32]
  rfl

/-- The directive for a value stays on its line, whatever the width. -/
theorem lineFeeds_of_dataDirective? (h : p.IsUsual) {size : Int} {directive : String}
    (hdirective : p.dataDirective? size = some directive) : Text.lineFeeds directive = 0 := by
  rcases h.directive_of_dataDirective? hdirective with
    ⟨-, hword⟩ | ⟨-, hword⟩ | ⟨-, hword⟩ | ⟨-, hword⟩ <;> rw [hword] <;> rfl

end IsUsual

end Profile

/-- The name of a bucket stays on its line. -/
theorem Bucket.lineFeeds_render (b : Bucket) : Text.lineFeeds b.render = 0 := by
  obtain ⟨arch, format, os, env⟩ := b
  have harch : Text.lineFeeds arch.name = 0 := by cases arch <;> rfl
  have hformat : Text.lineFeeds format.name = 0 := by cases format <;> rfl
  have hos : Text.lineFeeds os.name = 0 := by cases os <;> rfl
  have henv : Text.lineFeeds env.name = 0 := by cases env <;> rfl
  have hslash : Text.lineFeeds "/" = 0 := rfl
  simp [Bucket.render, harch, hformat, hos, henv, hslash]

end CodeEmission
