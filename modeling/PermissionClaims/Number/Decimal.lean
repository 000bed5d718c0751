/-!
# Numbers in decimal

Not every integer has a numeral: those of more than `maxDigits` digits are neither written nor read.
A `Numeral` is an integer that has one.
-/

namespace PermissionClaims

namespace Number

def digits (n : Nat) : List Char :=
  Nat.toDigits 10 n

/-- At least `width` digits, with zeros in front. -/
def paddedDigits (width n : Nat) : List Char :=
  let ds := digits n
  List.replicate (width - ds.length) '0' ++ ds

def signedDigits (n : Int) : List Char :=
  if n < 0 then '-' :: digits n.natAbs else digits n.natAbs

def ofDigits (ds : List Char) : Nat :=
  ds.foldl (fun n d => 10 * n + (d.toNat - '0'.toNat)) 0

/-- `m * base ^ e` as a quotient of natural numbers. -/
def scaled (m base : Nat) (e : Int) : Nat × Nat :=
  if 0 ≤ e then (m * Nat.pow base e.toNat, 1) else (m, Nat.pow base (-e).toNat)

/-- The natural number nearest to `n / d`, the even one of two. -/
def roundDiv (n d : Nat) : Nat :=
  let q := n / d
  let r := n % d
  if 2 * r < d ∨ (2 * r = d ∧ q % 2 = 0) then q else q + 1

/-- The exponent of the leading decimal digit of `num / den`, a positive number: the `e` with
`10 ^ e ≤ num / den < 10 ^ (e + 1)`. -/
def leadingExponent (num den : Nat) : Int :=
  if den ≤ num then ((digits (num / den)).length : Int) - 1
  else -((digits ((den + num - 1) / num - 1)).length : Int)

/-- The digits that a numeral can have, its sign not among them. -/
def maxDigits : Nat := 4300

end Number

/-- An integer that can be written. -/
structure Numeral where
  toInt : Int
  length_le : (Number.digits toInt.natAbs).length ≤ Number.maxDigits
  deriving DecidableEq

namespace Numeral

def toList (n : Numeral) : List Char :=
  Number.signedDigits n.toInt

theorem length_digits_byte_le (x : UInt8) : (Number.digits x.toNat).length ≤ 3 := by
  have hx : x.toNat < 10 ^ 3 := Nat.lt_of_lt_of_le x.toNat_lt (by decide)
  exact (Nat.length_toDigits_le_iff (by decide) (by decide)).2 hx

def ofByte (x : UInt8) : Numeral :=
  ⟨x.toNat, Nat.le_trans (length_digits_byte_le x) (by decide)⟩

end Numeral

end PermissionClaims
