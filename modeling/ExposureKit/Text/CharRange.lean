/-!
# Tables of code points

A property of characters is given by a table: a list of inclusive ranges of code
points. `inTable` looks a character up.
-/

namespace ExposureKit

/-- An inclusive range of code points: its first and its last. -/
abbrev CharRange := Nat × Nat

/-- Some range of the table holds the character. -/
def inTable (table : List CharRange) (c : Char) : Bool :=
  table.any fun r => decide (r.1 ≤ c.toNat) && decide (c.toNat ≤ r.2)

end ExposureKit
