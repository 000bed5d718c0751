import PermissionClaims.Time.Field

/-!
# Written times

A time is written by a pattern: its directives are replaced by the fields they stand for, and the
rest stays. A directive that stands for nothing is a text of its own, to which flags and width apply
all the same. A pattern has some room for each of its characters, and writes nothing at all if that
is not enough.
-/

namespace PermissionClaims.Time

namespace Directive

def meaningless (d : Directive) : Stretch :=
  d.text (if d.letter = some 'b' ∨ d.letter = some 'h' then .raised else .plain) d.source

/-- The letter of a directive, if the variant is one that it admits. -/
def letter? (d : Directive) : Option Char :=
  match d.variant with
  | none => d.letter
  | some v => d.letter.filter fun c => c ∉ v.excluded

/-- A single field. Width and filling apply to both parts of the distance. -/
def writeField (d : Directive) : Field → List Stretch
  | .number filling digits n => [d.number filling digits n]
  | .text casing cs => [d.text casing cs]
  | .distance => [d.text .plain ['+'], d.number .zeros 4 0]

end Directive

def stretches (rule : Directive → List Stretch) (pattern : List Char) : List Stretch :=
  (pieces pattern).flatMap fun
    | .literal c => [.literal c]
    | .directive d => rule d

def writeSingle (time : Int) (d : Directive) : List Stretch :=
  match d.letter?.bind (field? time (ofSeconds time)) with
  | some f => d.writeField f
  | none => [d.meaningless]

/-- Any directive; an arrangement is filled up as a whole. -/
def writeDirective (time : Int) (d : Directive) : List Stretch :=
  match d.letter?.bind arrangement? with
  | some pattern =>
    [d.text .plain (Stretch.toText (stretches (writeSingle time) pattern.toList))]
  | none => writeSingle time d

/-- The room for what a pattern of some length writes, in characters and with one to spare. -/
def room (length : Nat) : Nat :=
  256 * max 4 length.nextPowerOfTwo

def write (pattern : List Char) (time : Int) : List Char :=
  let ss := stretches (writeDirective time) pattern
  if Stretch.totalLength ss < room pattern.length then Stretch.toText ss else []

end PermissionClaims.Time
