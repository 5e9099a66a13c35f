/-!
# Ranges of code points

A property of characters is given by a table of ranges of code points. This module holds the one
test that all those tables share.

## Main definitions

* `LogicGraph.CodeRange` — a closed range of code points.
* `LogicGraph.CodeRange.cover` — whether some range of a table holds a character.
-/

namespace LogicGraph

/-- A closed range of code points. -/
structure CodeRange where
  /-- The first code point of the range. -/
  first : Nat
  /-- The last code point of the range. -/
  last : Nat
  deriving DecidableEq, Repr

namespace CodeRange

/-- Whether the range holds the character. -/
def holds (r : CodeRange) (c : Char) : Bool :=
  decide (r.first ≤ c.toNat) && decide (c.toNat ≤ r.last)

/-- Whether some range of the table holds the character. -/
def cover (table : List CodeRange) (c : Char) : Bool :=
  table.any (·.holds c)

/-- A range holds the characters from its first to its last. -/
theorem holds_iff {r : CodeRange} {c : Char} :
    r.holds c = true ↔ r.first ≤ c.toNat ∧ c.toNat ≤ r.last := by
  simp [holds]

/-- A table covers the characters that one of its ranges holds. -/
theorem cover_iff {table : List CodeRange} {c : Char} :
    cover table c = true ↔ ∃ r ∈ table, r.first ≤ c.toNat ∧ c.toNat ≤ r.last := by
  simp [cover, holds_iff]

end CodeRange

end LogicGraph
