import PermissionClaims.Value.Render

/-!
# What can go wrong with a template
-/

namespace PermissionClaims.Template

inductive Fault where
  | noNames
  | unclosedName
  | unknownName (name : String)
  | tooFewValues
  | tooManyValues
  | cutOff
  | widthTooBig
  | precisionTooBig
  | precisionTooLarge
  | starNotWhole
  | starWidthTooLarge
  | starPrecisionTooLarge
  | unknownLetter (letter : Char) (index : Nat)
  | notANumber (letter : Char) (kind : String)
  | notWhole (letter : Char) (kind : String)
  | infinite
  | undefined
  | notReal (kind : String)
  | tooLargeForReal
  | notACharacter
  | noSuchCharacter
  | textTooLong
  deriving DecidableEq, Repr

namespace Fault

/-- A letter in a message; one out of the ordinary is shown as a question mark. -/
def shownLetter (c : Char) : Char :=
  if 0x1f ≤ c.toNat ∧ c.toNat < 0x7f then c else '?'

def message : Fault → String
  | noNames => "format requires a mapping"
  | unclosedName => "incomplete format key"
  | unknownName name => (Value.plain name).rendered
  | tooFewValues => "not enough arguments for format string"
  | tooManyValues => "not all arguments converted during string formatting"
  | cutOff => "incomplete format"
  | widthTooBig => "width too big"
  | precisionTooBig => "precision too big"
  | precisionTooLarge => "precision too large"
  | starNotWhole => "* wants int"
  | starWidthTooLarge => "Python int too large to convert to C ssize_t"
  | starPrecisionTooLarge => "Python int too large to convert to C int"
  | unknownLetter c index =>
    "unsupported format character '" ++ String.singleton (shownLetter c) ++ "' (0x" ++
      String.ofList (Nat.toDigits 16 c.toNat) ++ ") at index " ++ toString index
  | notANumber letter kind =>
    "%" ++ String.singleton letter ++ " format: a real number is required, not " ++ kind
  | notWhole letter kind =>
    "%" ++ String.singleton letter ++ " format: an integer is required, not " ++ kind
  | infinite => "cannot convert float infinity to integer"
  | undefined => "cannot convert float NaN to integer"
  | notReal kind => "must be real number, not " ++ kind
  | tooLargeForReal => "int too large to convert to float"
  | notACharacter => "%c requires int or char"
  | noSuchCharacter => "%c arg not in range(0x110000)"
  | textTooLong => ""

end Fault

end PermissionClaims.Template
