/-!
# Tables over Character Ranges

A property of characters is given as a list of disjoint ranges of code points in increasing order,
each with the value that all its characters share. `RangeTable.find?` searches it by halving.

A table is written as text: ranges `lo-hi` or `lo-hi:value` in hexadecimal, divided by spaces and
line breaks. `RangeTable.ofText` reads that form; the value is read by the caller.

A long table is kept in pages, one for each block of 256 code points, so that looking up a character
reads the rows of its own block alone.
-/

namespace CodeEmission.Text

/-- One range of code points, both ends included, and the value of its characters. -/
structure Range (α : Type) where
  /-- The first code point. -/
  first : Nat
  /-- The last code point. -/
  last : Nat
  /-- The value shared by the range. -/
  value : α

/-- Disjoint ranges in increasing order. -/
structure RangeTable (α : Type) where
  /-- The rows of the table. -/
  rows : Array (Range α)

namespace RangeTable

variable {α : Type}

/-- Search the rows from `lo` up to, but without, `hi`. -/
def search (t : RangeTable α) (n : Nat) (lo hi : Nat) : Option α :=
  if _h : lo < hi then
    let mid := (lo + hi) / 2
    match t.rows[mid]? with
    | none => none
    | some row =>
      if n < row.first then search t n lo mid
      else if row.last < n then search t n (mid + 1) hi
      else some row.value
  else none
termination_by hi - lo
decreasing_by all_goals omega

/-- The value at a code point, if some range holds it. -/
def find? (t : RangeTable α) (n : Nat) : Option α :=
  t.search n 0 t.rows.size

/-- Whether some range holds the character. -/
def has (t : RangeTable α) (c : Char) : Bool :=
  (t.find? c.toNat).isSome

end RangeTable

/-- The number that hexadecimal digits spell. Other characters count as zero. -/
def hexNat (digits : List Char) : Nat :=
  digits.foldl (fun n c =>
    n * 16 + (if c.isDigit then c.toNat - 48 else if 'a' ≤ c ∧ c ≤ 'f' then c.toNat - 87 else 0)) 0

/-- The entries of a text, divided by spaces and line breaks. -/
def entriesOf (text : String) : List (List Char) :=
  ((text.toList.map fun c => if c == '\n' then ' ' else c).splitOn ' ').filter (!·.isEmpty)

/-- Read the text form of a table. -/
def RangeTable.ofText {α : Type} (value : List Char → α) (text : String) : RangeTable α where
  rows := ((entriesOf text).map fun row =>
    let bounds := row.takeWhile (· != ':')
    { first := hexNat (bounds.takeWhile (· != '-'))
      last := hexNat ((bounds.dropWhile (· != '-')).drop 1)
      value := value ((row.dropWhile (· != ':')).drop 1) }).toArray

/-- A table in pages. A page is named by the code points of its rows without their last two
hexadecimal digits; no range crosses a page. -/
structure PagedTable (α : Type) where
  /-- The pages by name. -/
  pages : List (Nat × RangeTable α)

namespace PagedTable

variable {α : Type}

/-- The value at a code point, if some range of its page holds it. -/
def find? (t : PagedTable α) (n : Nat) : Option α :=
  match t.pages.lookup (n / 256) with
  | some page => page.find? n
  | none => none

/-- Read the text forms of the pages. -/
def ofTexts (value : List Char → α) (texts : List (Nat × String)) : PagedTable α where
  pages := texts.map fun (page, text) => (page, RangeTable.ofText value text)

end PagedTable

end CodeEmission.Text
