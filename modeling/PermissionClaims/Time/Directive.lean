import PermissionClaims.Number.Decimal

/-!
# Directives

A directive is what a percent sign starts in the pattern of a written time. It has flags, a width
and a variant, all of which can be left out, and then a letter. Every text can be read as a
pattern.
-/

namespace PermissionClaims.Time

inductive Filling where
  | zeros
  | blanks
  | nothing
  deriving DecidableEq, Repr

def fillingOf? (c : Char) : Option Filling :=
  match c with
  | '-' => some .nothing
  | '_' => some .blanks
  | '0' => some .zeros
  | _ => none

def isFlag (c : Char) : Bool :=
  (fillingOf? c).isSome || c = '^' || c = '#'

/-- Another way to write a field. Here they all come to the usual one, but not every letter admits
them. -/
inductive Variant where
  /-- By the era. -/
  | era
  /-- With digits of another kind. -/
  | digits
  deriving DecidableEq, Repr

def Variant.letter : Variant → Char
  | era => 'E'
  | digits => 'O'

/-- The letter is absent if the pattern ends before it. -/
structure Directive where
  flags : List Char
  digits : List Char
  variant : Option Variant
  letter : Option Char
  deriving DecidableEq, Repr

namespace Directive

def ofLetter (c : Char) : Directive :=
  ⟨[], [], none, some c⟩

def source (d : Directive) : List Char :=
  '%' :: d.flags ++ d.digits ++ (d.variant.map Variant.letter).toList ++ d.letter.toList

/-- Of several fillings the last one counts. -/
def filling (d : Directive) : Option Filling :=
  (d.flags.filterMap fillingOf?).getLast?

def raises (d : Directive) : Bool :=
  '^' ∈ d.flags

/-- Whether the case of letters is turned, which a text takes in its own way. -/
def turns (d : Directive) : Bool :=
  '#' ∈ d.flags

def width (d : Directive) : Nat :=
  Number.ofDigits d.digits

end Directive

inductive Piece where
  | literal (c : Char)
  | directive (d : Directive)
  deriving DecidableEq, Repr

def readVariant : List Char → Option Variant × List Char
  | 'E' :: cs => (some .era, cs)
  | 'O' :: cs => (some .digits, cs)
  | cs => (none, cs)

/-- The directive that starts after a percent sign, and what comes after it. -/
def readDirective (cs : List Char) : Directive × List Char :=
  let flags := cs.takeWhile isFlag
  let cs := cs.dropWhile isFlag
  let digits := cs.takeWhile Char.isDigit
  let (variant, cs) := readVariant (cs.dropWhile Char.isDigit)
  match cs with
  | [] => (⟨flags, digits, variant, none⟩, [])
  | c :: rest => (⟨flags, digits, variant, some c⟩, rest)

theorem readVariant_append (cs : List Char) :
    ((readVariant cs).1.map Variant.letter).toList ++ (readVariant cs).2 = cs := by
  unfold readVariant
  split <;> rfl

/-- Nothing is lost in reading. -/
theorem source_readDirective (cs : List Char) :
    (readDirective cs).1.source ++ (readDirective cs).2 = '%' :: cs := by
  have h₁ := List.takeWhile_append_dropWhile (p := isFlag) (l := cs)
  have h₂ := List.takeWhile_append_dropWhile (p := Char.isDigit) (l := cs.dropWhile isFlag)
  have h₃ := readVariant_append ((cs.dropWhile isFlag).dropWhile Char.isDigit)
  simp only [readDirective, Directive.source]
  split
  · rename_i h
    simp_all
  · rename_i h
    rw [h] at h₃
    simp only [List.cons_append, List.append_assoc, Option.toList_some, List.nil_append]
    rw [h₃, h₂, h₁]

theorem length_readDirective_le (cs : List Char) :
    (readDirective cs).2.length ≤ cs.length := by
  have h := congrArg List.length (source_readDirective cs)
  simp only [Directive.source, List.cons_append, List.length_cons, List.length_append] at h
  omega

def pieces : List Char → List Piece
  | [] => []
  | '%' :: cs =>
    have := length_readDirective_le cs
    .directive (readDirective cs).1 :: pieces (readDirective cs).2
  | c :: cs => .literal c :: pieces cs
termination_by cs => cs.length
decreasing_by all_goals (simp only [List.length_cons]; omega)

end PermissionClaims.Time
