/-!
# Edit Distance

The least number of insertions, deletions and replacements of single items that turn one list into
another. It is computed a row at a time: the row of a list holds its distances to all leading parts
of the target, shortest first.
-/

namespace CodeEmission.Text

variable {α : Type} [DecidableEq α]

/-- The rest of the next row, after the entry `left`. The old row starts above that entry. -/
def restOfRow (a : α) : Nat → List Nat → List α → List Nat
  | left, diagonal :: above :: old, b :: target =>
    let here := if a = b then diagonal else 1 + min diagonal (min left above)
    here :: restOfRow a here (above :: old) target
  | _, _, _ => []

/-- The row of a list with one more item. -/
def nextRow (target : List α) (row : List Nat) (a : α) : List Nat :=
  match row with
  | first :: _ => (first + 1) :: restOfRow a (first + 1) row target
  | [] => []

/-- The distance between two lists. -/
def editDistance (source target : List α) : Nat :=
  ((source.foldl (nextRow target) (List.range (target.length + 1))).getLast?).getD 0

end CodeEmission.Text
