/-!
# Sets of characters as ranges

`Ranges` lists closed ranges of scalar values; `Ranges.contains` tests a character.
-/

namespace Translit.Unicode

/-- Closed ranges of scalar values. -/
abbrev Ranges := List (Nat × Nat)

/-- The character lies in one of the ranges. -/
def Ranges.contains (rs : Ranges) (c : Char) : Bool :=
  rs.any fun r => r.1 ≤ c.toNat && c.toNat ≤ r.2

end Translit.Unicode
