import PermissionClaims.Text.Capital
import PermissionClaims.Time.Directive

/-!
# Stretches of a written time

A stretch is a part of a written time before its filling is laid out, so that its length is known
however wide it is.
-/

namespace PermissionClaims.Time

/-- A stretch has `missing` fillers between its sign, if any, and the rest. -/
structure Stretch where
  sign : List Char
  filler : Char
  missing : Nat
  body : List Char
  deriving DecidableEq, Repr

namespace Stretch

def toList (s : Stretch) : List Char :=
  s.sign ++ List.replicate s.missing s.filler ++ s.body

def length (s : Stretch) : Nat :=
  s.sign.length + s.missing + s.body.length

def literal (c : Char) : Stretch :=
  ⟨[], ' ', 0, [c]⟩

def totalLength (ss : List Stretch) : Nat :=
  ss.foldr (fun s n => s.length + n) 0

def toText (ss : List Stretch) : List Char :=
  ss.flatMap toList

end Stretch

/-- What the flags of a directive make of the letters of a text. -/
inductive Casing where
  /-- Only capitals can be asked for. -/
  | plain
  /-- To turn them makes capitals. -/
  | raised
  /-- To turn them makes small letters. -/
  | lowered
  /-- They are small letters in any case. -/
  | small
  deriving DecidableEq, Repr

namespace Directive

def cased (d : Directive) (casing : Casing) (cs : List Char) : List Char :=
  if casing = .small ∨ (casing = .lowered ∧ d.turns) then cs.map Char.toLower
  else if d.raises ∨ (casing = .raised ∧ d.turns) then Text.capitals cs
  else cs

/-- A text, filled up to the width with blanks unless zeros are asked for. -/
def text (d : Directive) (casing : Casing) (cs : List Char) : Stretch :=
  ⟨[], if d.filling = some .zeros then '0' else ' ', d.width - cs.length, d.cased casing cs⟩

/-- A number of at least some digits, filled up to them or to the width if it is greater. With
nothing to fill it up with it has its own digits only, and comes after blanks up to the width. -/
def number (d : Directive) (usual : Filling) (atLeast : Nat) (n : Int) : Stretch :=
  let ds := Number.digits n.natAbs
  let sign := if n < 0 then ['-'] else []
  let missing (width : Nat) : Nat := width - (sign.length + ds.length)
  match d.filling.getD usual with
  | .zeros => ⟨sign, '0', missing (max atLeast d.width), ds⟩
  | .blanks => ⟨[], ' ', missing (max atLeast d.width), sign ++ ds⟩
  | .nothing => ⟨[], ' ', missing d.width, sign ++ ds⟩

end Directive

end PermissionClaims.Time
