/-!
# Rings

A ring holds the newest entries up to a fixed number. It fills from the front; once it is full, each
new entry takes the place of the oldest. `toList` is the view of a ring as the list of what it
holds, oldest first.
-/

namespace CodeEmission.Trace

/-- The newest entries, up to a capacity. -/
structure Ring (α : Type) where
  /-- The most entries that are held. -/
  capacity : Nat
  /-- The entries; from `head` on the older ones, before it the newer ones. -/
  slots : Array α := #[]
  /-- The place of the oldest entry. -/
  head : Nat := 0
  deriving Repr, Inhabited

namespace Ring

variable {α : Type}

/-- How many entries a ring holds when no usable number is asked for. -/
def standardCapacity : Nat := 4096

/-- An empty ring for the requested number of entries, or for the standard number when the request
is not positive. -/
def ofRequest (requested : Int64) : Ring α :=
  { capacity := if requested ≤ 0 then standardCapacity else requested.toInt.toNat }

/-- Add an entry, in place of the oldest one when the ring is full. -/
def push (r : Ring α) (a : α) : Ring α :=
  if r.slots.size < r.capacity then { r with slots := r.slots.push a }
  else { r with slots := r.slots.setIfInBounds r.head a, head := (r.head + 1) % r.capacity }

/-- The entries, oldest first. -/
def toList (r : Ring α) : List α :=
  r.slots.toList.drop r.head ++ r.slots.toList.take r.head

/-- Change every entry in its place. -/
def map (f : α → α) (r : Ring α) : Ring α :=
  { r with slots := r.slots.map f }

end Ring

end CodeEmission.Trace
