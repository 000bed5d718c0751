import PermissionClaims.Number.Decimal
import PermissionClaims.Text.Blank

/-!
# Numbers of the binary64 format

A finite number is held exactly, as a mantissa times a power of two, so that what is written for it
follows from arithmetic on natural numbers alone. A number that is read is rounded to the nearest
one of the format.
-/

namespace PermissionClaims

/-- `finite s m e` is `m * 2 ^ e`, negated if `s`. It has its sign even if `m` is zero. -/
inductive Binary64 where
  | nan
  | infinity (negative : Bool)
  | finite (negative : Bool) (mantissa : Nat) (exponent : Int)
  deriving DecidableEq, Repr

namespace Binary64

def minExponent : Int := -1074

def maxExponent : Int := 971

/-- The bound on mantissas; those of a number with a larger exponent than the least are at least
half of it. -/
def mantissaBound : Nat := 0x20000000000000

/-- A number from its rounded mantissa, which may have reached the bound. -/
def ofMantissa (negative : Bool) (m : Nat) (e : Int) : Binary64 :=
  let (m, e) := if m = mantissaBound then (mantissaBound / 2, e + 1) else (m, e)
  if maxExponent < e then .infinity negative else .finite negative m e

/-- The `e` with `2 ^ e ≤ num / den < 2 ^ (e + 1)`, for a positive number. -/
def leadingBit (num den : Nat) : Int :=
  let e : Int := (num.log2 : Int) - den.log2
  if num * (Number.scaled 1 2 e).2 < den * (Number.scaled 1 2 e).1 then e - 1 else e

/-- The number nearest to `num / den`. -/
def ofRatio (negative : Bool) (num den : Nat) : Binary64 :=
  if num = 0 then .finite negative 0 minExponent
  else
    let e := max (leadingBit num den - 52) minExponent
    let unit := Number.scaled 1 2 e
    ofMantissa negative (Number.roundDiv (num * unit.2) (den * unit.1)) e

def ofInt (n : Int) : Binary64 :=
  ofRatio (n < 0) n.natAbs 1

def magnitude (m : Nat) (e : Int) : Nat × Nat :=
  Number.scaled m 2 e

def truncate (negative : Bool) (m : Nat) (e : Int) : Int :=
  let (num, den) := magnitude m e
  if negative then -(num / den : Nat) else (num / den : Nat)

def floor? : Binary64 → Option Int
  | .finite negative m e =>
    let (num, den) := magnitude m e
    some ((if negative then -(num : Int) else num) / den)
  | _ => none

def equalsInt : Binary64 → Int → Bool
  | .finite negative m e, n =>
    let (num, den) := magnitude m e
    num % den = 0 && truncate negative m e = n
  | _, _ => false

/-- Equality of numbers: nothing equals `nan`, and the two zeros are equal. -/
def equals : Binary64 → Binary64 → Bool
  | .infinity s, .infinity t => s == t
  | .finite s m e, .finite t n f => (m = 0 && n = 0) || (s == t && m = n && e = f)
  | _, _ => false

def spanDigits (cs : List Char) : List Char × List Char :=
  cs.span Char.isDigit

def spanSign : List Char → Bool × List Char
  | '-' :: cs => (true, cs)
  | '+' :: cs => (false, cs)
  | cs => (false, cs)

/-- An exponent part, from its `e` to the end; without one the exponent is zero. -/
def readExponent? : List Char → Option Int
  | [] => some 0
  | c :: cs =>
    let (negative, cs) := spanSign cs
    let (ds, rest) := spanDigits cs
    if (c = 'e' ∨ c = 'E') ∧ ds ≠ [] ∧ rest = [] then
      some (if negative then -(Number.ofDigits ds : Int) else Number.ofDigits ds)
    else none

/-- The number nearest to `n * 10 ^ e`. Far out of the format's range the power is not worked
out. -/
def ofDecimal (negative : Bool) (n : Nat) (e : Int) : Binary64 :=
  if n = 0 then .finite negative 0 minExponent
  else
    let leading := e + (Number.digits n).length
    if 400 < leading then .infinity negative
    else if leading < -400 then .finite negative 0 minExponent
    else
      let (num, den) := Number.scaled n 10 e
      ofRatio negative num den

/-- A text without the underscores in it, which can only stand between digits. -/
def dropUnderscores? (before : Char) : List Char → Option (List Char)
  | [] => some []
  | '_' :: c :: cs =>
    if before.isDigit ∧ c.isDigit then (dropUnderscores? c cs).map (c :: ·) else none
  | c :: cs => if c = '_' then none else (dropUnderscores? c cs).map (c :: ·)

def infinityWords : List (List Char) :=
  ["inf".toList, "infinity".toList]

/-- Reads the size of a number: its digits with a point and an exponent or without, or a word. -/
def readSize? (negative : Bool) (cs : List Char) : Option Binary64 :=
  let word := cs.map Char.toLower
  if word ∈ infinityWords then some (.infinity negative)
  else if word = "nan".toList then some .nan
  else
    let (whole, rest) := spanDigits cs
    let (fraction, rest) := match rest with
      | '.' :: rest => spanDigits rest
      | rest => ([], rest)
    if whole = [] ∧ fraction = [] then none
    else (readExponent? rest).map fun e =>
      ofDecimal negative (Number.ofDigits (whole ++ fraction)) (e - fraction.length)

def read? (cs : List Char) : Option Binary64 := do
  let (negative, cs) := spanSign (Text.trim cs)
  readSize? negative (← dropUnderscores? ' ' cs)

end Binary64

end PermissionClaims
