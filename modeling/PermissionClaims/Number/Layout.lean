import PermissionClaims.Number.Shortest

/-!
# How a number of the binary64 format is laid out

By default a number has its shortest digits, with a point between them or, if it is very large or
very small, with an exponent behind them. A number can also be laid out to a given count of places,
correctly rounded from its exact value, a half to the even digit.
-/

namespace PermissionClaims.Binary64

def sign (negative : Bool) : List Char :=
  if negative then ['-'] else []

/-- Digits before and after a point, which is left out before nothing unless `point` asks for
it. -/
def withPoint (point : Bool) (whole fraction : List Char) : List Char :=
  if fraction = [] ∧ point = false then whole else whole ++ '.' :: fraction

/-- An exponent has a sign and two digits at least. -/
def exponentPart (mark : Char) (e : Int) : List Char :=
  mark :: (if e < 0 then '-' else '+') :: Number.paddedDigits 2 e.natAbs

def dropFinalZeros (ds : List Char) : List Char :=
  (ds.reverse.dropWhile (· = '0')).reverse

/-- Digits of which the first stands for `10 ^ leading`, with a point and no exponent. -/
def positional (point : Bool) (ds : List Char) (leading : Int) : List Char :=
  if leading < 0 then
    withPoint point ['0'] (List.replicate ((-leading).toNat - 1) '0' ++ ds)
  else
    let n := leading.toNat + 1
    withPoint point (ds.take n ++ List.replicate (n - ds.length) '0') (ds.drop n)

/-- Digits of which the first stands for `10 ^ leading`, with a point after it and an exponent. -/
def exponential (point : Bool) (mark : Char) (ds : List Char) (leading : Int) : List Char :=
  withPoint point (ds.take 1) (ds.drop 1) ++ exponentPart mark leading

/-- From this leading exponent on a number is written with an exponent. -/
def firstLarge : Int := 16

/-- Below this leading exponent a number is written with an exponent. -/
def leastPositional : Int := -4

/-- The shortest text of a number. One without an exponent has a digit behind its point. -/
def render : Binary64 → List Char
  | .nan => ['n', 'a', 'n']
  | .infinity s => sign s ++ ['i', 'n', 'f']
  | .finite s 0 _ => sign s ++ ['0', '.', '0']
  | .finite s m e =>
    let d := shortest m e
    let written := Number.digits d.coefficient
    let leading := d.exponent + written.length - 1
    let ds := dropFinalZeros written
    if firstLarge ≤ leading ∨ leading < leastPositional then
      sign s ++ exponential false 'e' ds leading
    else
      let text := positional false ds leading
      sign s ++ if leading + 1 < ds.length then text else text ++ ['.', '0']

/-- The digits of `num / den` to `count` places behind the point, without the point. -/
def placedDigits (count num den : Nat) : List Char :=
  Number.paddedDigits (count + 1) (Number.roundDiv (num * Nat.pow 10 count) den)

/-- The first `count + 1` digits of `num / den`, rounded, and the leading exponent of the result. -/
def leadingDigits (count num den : Nat) : List Char × Int :=
  if num = 0 then (List.replicate (count + 1) '0', 0)
  else
    let leading := Number.leadingExponent num den
    let unit := Number.scaled 1 10 (leading - count)
    let ds := Number.digits (Number.roundDiv (num * unit.2) (den * unit.1))
    if count + 1 < ds.length then (ds.take (count + 1), leading + 1) else (ds, leading)

/-- The layouts that have a count of places: behind the point, behind the leading digit, or that
many digits in all, with an exponent where the number calls for it. -/
inductive Layout where
  | fixed
  | exponent
  | general
  deriving DecidableEq, Repr

/-- No finite number has more digits than this when it is written out exactly, so that to ask for
more adds zeros only. -/
def mostDigits : Nat := 1100

/-- The size of a finite number. In the general layout zeros at the end are left out, unless `full`
asks for all places; `full` also keeps a point before nothing. -/
def Layout.place (layout : Layout) (full : Bool) (places num den : Nat) : List Char :=
  match layout with
  | .fixed =>
    let ds := placedDigits places num den
    withPoint full (ds.take (ds.length - places)) (ds.drop (ds.length - places))
  | .exponent =>
    let (ds, leading) := leadingDigits places num den
    exponential full 'e' ds leading
  | .general =>
    let count := if full then max places 1 else min (max places 1) mostDigits
    let (ds, leading) := leadingDigits (count - 1) num den
    let kept := if full then ds else (ds.take 1) ++ dropFinalZeros (ds.drop 1)
    if leading < leastPositional ∨ count ≤ leading then exponential full 'e' kept leading
    else positional full kept leading

def Layout.write (layout : Layout) (full : Bool) (places : Nat) : Binary64 → List Char
  | .nan => ['n', 'a', 'n']
  | .infinity s => sign s ++ ['i', 'n', 'f']
  | .finite s m e =>
    let (num, den) := magnitude m e
    sign s ++ layout.place full places num den

end PermissionClaims.Binary64
