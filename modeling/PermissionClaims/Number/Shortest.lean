import PermissionClaims.Number.Binary64

/-!
# The shortest decimal of a number

A finite number is written with the fewest digits that read back as the same number, and with the
nearest such digits. The numbers that read back as `m * 2 ^ e` lie in an interval around it, which
holds its ends if `m` is even; on the grid of the decimals of a given length only the two neighbours
of the number need a look.
-/

namespace PermissionClaims.Binary64

/-- A positive decimal, `coefficient * 10 ^ exponent`. -/
structure Decimal where
  coefficient : Nat
  exponent : Int
  deriving DecidableEq, Repr

/-- How far below the number its interval reaches, in quarters of its last place. Just above a power
of two the format is twice as fine below the number as above it. -/
def gapBelow (m : Nat) (e : Int) : Nat :=
  if 2 * m = mantissaBound ∧ minExponent < e then 1 else 2

/-- The decimal of exponent `k` that is nearest to `m * 2 ^ e` and reads back as it, if there is
one. All lengths are in units of which the last place of the number has `4 * unit` and the grid
`grid`. -/
def nearest? (m : Nat) (e k : Int) : Option Nat :=
  let unit := (Number.scaled 1 2 (e - 2)).1 * (Number.scaled 1 10 k).2
  let grid := (Number.scaled 1 2 (e - 2)).2 * (Number.scaled 1 10 k).1
  let value := 4 * m * unit
  let low := value - gapBelow m e * unit
  let high := value + 2 * unit
  let inside (d : Nat) : Bool :=
    if m % 2 = 0 then low ≤ d * grid && d * grid ≤ high else low < d * grid && d * grid < high
  let below := value / grid
  let nearer := Number.roundDiv value grid
  if inside nearer then some nearer
  else if inside below then some below
  else if inside (below + 1) then some (below + 1)
  else none

/-- Seventeen digits always read back. -/
def shortest (m : Nat) (e : Int) : Decimal :=
  let (num, den) := magnitude m e
  let leading := Number.leadingExponent num den
  let found := (List.range 17).findSome? fun (n : Nat) =>
    (nearest? m e (leading - n)).map fun d => (⟨d, leading - n⟩ : Decimal)
  found.getD ⟨num / den, 0⟩

end PermissionClaims.Binary64
