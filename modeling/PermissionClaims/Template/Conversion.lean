import PermissionClaims.Template.Basic
import PermissionClaims.Template.Fault
import PermissionClaims.Value.Key

/-!
# How a value is put into a place

The letter of a place says as what the value is written: as a text, a whole number in some base, a
real number in some layout, or a character. A text is cut to the precision; a whole number has at
least that many digits. What is then shorter than the width is filled up, before the digits with
zeros if the flags say so, and otherwise with blanks.
-/

namespace PermissionClaims.Template

/-- A written value: what stands before any zeros that fill it up, and the rest. -/
structure Written where
  sign : List Char
  marker : List Char
  body : List Char
  deriving Repr

def Written.text (cs : List Char) : Written :=
  ⟨[], [], cs⟩

def Written.fill (w : Written) (left zeros : Bool) (width : Nat) : List Char :=
  let lead := w.sign ++ w.marker
  let missing := width - (lead.length + w.body.length)
  if left then lead ++ w.body ++ List.replicate missing ' '
  else if zeros then lead ++ List.replicate missing '0' ++ w.body
  else List.replicate missing ' ' ++ lead ++ w.body

/-- The sign of a number, under the flags for those that have no minus. -/
def signOf (flags : Flags) (negative : Bool) : List Char :=
  if negative then ['-'] else if flags.plus then ['+'] else if flags.blank then [' '] else []

def upperAscii (cs : List Char) : List Char :=
  cs.map Char.toUpper

/-- A whole number in base 8 or 16, which a marker can tell, or else in base 10. -/
def writeWhole (flags : Flags) (precision : Option Nat) (letter : Char) (n : Int) : Written :=
  let base := if letter = 'o' then 8 else if letter = 'x' ∨ letter = 'X' then 16 else 10
  let ds := Nat.toDigits base n.natAbs
  let ds := List.replicate (precision.getD 0 - ds.length) '0' ++ ds
  let marker := if flags.alternate ∧ base ≠ 10 then ['0', letter] else []
  ⟨signOf flags (n < 0), marker, if letter = 'X' then upperAscii ds else ds⟩

/-- The whole number that a value is without what is behind its point. -/
def wholePart (letter : Char) (v : Value) : Except Fault Int :=
  match v.asInt?, v with
  | some n, _ => .ok n
  | none, .float (.finite negative m e) => .ok (Binary64.truncate negative m e)
  | none, .float (.infinity _) => .error .infinite
  | none, .float .nan => .error .undefined
  | none, v => .error (.notANumber letter v.kind)

def wholeNumber (letter : Char) (v : Value) : Except Fault Int :=
  match v.asInt? with
  | some n => .ok n
  | none => .error (.notWhole letter v.kind)

def realNumber (v : Value) : Except Fault Binary64 :=
  match v.asInt?, v with
  | some n, _ =>
    match Binary64.ofInt n with
    | .infinity _ => .error .tooLargeForReal
    | x => .ok x
  | none, .float x => .ok x
  | none, v => .error (.notReal v.kind)

def isNegative : Binary64 → Bool
  | .nan => false
  | .infinity s => s
  | .finite s _ _ => s

def magnitudeOf : Binary64 → Binary64
  | .nan => .nan
  | .infinity _ => .infinity false
  | .finite _ m e => .finite false m e

def writeReal (flags : Flags) (precision : Option Nat) (layout : Binary64.Layout) (upper : Bool)
    (x : Binary64) : Written :=
  let text := layout.write flags.alternate (precision.getD 6) (magnitudeOf x)
  ⟨signOf flags (isNegative x), [], if upper then upperAscii text else text⟩

/-- The character that a value is, or that has its number. -/
def character (v : Value) : Except Fault Char :=
  match v.asInt?, v with
  | some n, _ =>
    if 0 ≤ n ∧ n < 0x110000 then .ok (Char.ofNat n.toNat) else .error .noSuchCharacter
  | none, .text t =>
    match t.content.toList with
    | [c] => .ok c
    | _ => .error .notACharacter
  | none, _ => .error .notACharacter

def maxDigits : Nat := 0x7ffffffc

def checkDigits (precision : Option Nat) : Except Fault Unit :=
  if maxDigits < precision.getD 0 then .error .precisionTooLarge else .ok ()

def layoutOf? (letter : Char) : Option Binary64.Layout :=
  match letter.toLower with
  | 'e' => some .exponent
  | 'f' => some .fixed
  | 'g' => some .general
  | _ => none

def cut (precision : Option Nat) (cs : List Char) : List Char :=
  match precision with
  | some n => cs.take n
  | none => cs

/-- A value written as a letter says; `true` for a number, which zeros can fill up. -/
def write (p : Place) (precision : Option Nat) (letter : Char) (v : Value) :
    Except Fault (Written × Bool) := do
  if letter = 's' then return (.text (cut precision v.display), false)
  if letter = 'r' then return (.text (cut precision v.render), false)
  if letter = 'a' then return (.text (cut precision (Text.asciiOnly v.render)), false)
  if letter = 'd' ∨ letter = 'i' ∨ letter = 'u' then
    let n ← wholePart letter v
    checkDigits precision
    return (writeWhole p.flags precision letter n, true)
  if letter = 'o' ∨ letter = 'x' ∨ letter = 'X' then
    let n ← wholeNumber letter v
    checkDigits precision
    return (writeWhole p.flags precision letter n, true)
  if let some layout := layoutOf? letter then
    let x ← realNumber v
    return (writeReal p.flags precision layout letter.isUpper x, true)
  if letter = 'c' then
    let c ← character v
    return (.text [c], false)
  throw (.unknownLetter letter p.index)

end PermissionClaims.Template
