/-!
# Sets of characters

A set of characters is given by the ranges of code points it is made of.
-/

namespace PermissionClaims.Text

abbrev CodeRanges := List (Nat × Nat)

def CodeRanges.covers (ranges : CodeRanges) (c : Char) : Bool :=
  ranges.any fun range => range.1 ≤ c.toNat && c.toNat ≤ range.2

end PermissionClaims.Text
