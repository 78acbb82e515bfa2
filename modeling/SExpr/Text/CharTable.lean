/-!
# Tables of characters

A class of characters given as ranges of code points.
-/

set_option autoImplicit false

namespace SExpr

/-- Ranges of code points, with both ends included. -/
abbrev CharTable := List (Nat × Nat)

/-- Does one of the ranges hold this character? -/
def CharTable.has (table : CharTable) (c : Char) : Bool :=
  table.any fun (first, last) => first ≤ c.toNat && c.toNat ≤ last

end SExpr
