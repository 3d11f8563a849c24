import LaneGrid.Word

/-!
# Scan operators

Binary operators that are scanned with. `first`, `last`, `affine` and `segmentedSum` are not
commutative, so a scan that swaps its operands shows.
-/

namespace LaneGrid.Operator

variable {α : Type} {k : IntKind}

def first (a _b : α) : α := a

def last (_a b : α) : α := b

/-- The larger of two values; the left one if neither is below the other. -/
def larger (lt : α → α → Bool) (a b : α) : α := if lt a b then b else a

/-- The smaller of two values; the left one if neither is below the other. -/
def smaller (lt : α → α → Bool) (a b : α) : α := if lt b a then b else a

/-- The map `x ↦ a.1 * x + a.2` followed by the map `x ↦ b.1 * x + b.2`, with wrapping words. -/
def affine (a b : Word k × Word k) : Word k × Word k :=
  (a.1.mul b.1, (a.2.mul b.1).add b.2)

/-- Sums that begin anew at every value whose first word, the head flag, is not zero. -/
def segmentedSum (a b : Word k × Word k) : Word k × Word k :=
  (a.1.or b.1, if b.1 = .zero then a.2.add b.2 else b.2)

end LaneGrid.Operator
