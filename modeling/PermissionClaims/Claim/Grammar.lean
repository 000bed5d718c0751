import PermissionClaims.Text.Pattern
import PermissionClaims.Value.Basic

/-!
# Claim text

A claim text is a verb, a colon and a subject. The subject is a star or a path, and after a path a
suffix is ignored: always `.*`, and in the trailing-dot dialect also a single dot. A path is made of
segments between dots; hyphens are allowed anywhere but at its two ends.

`match?` reads off the verb and the subject as written, by the pattern of the dialect; a `Spelling`
that fits the dialect says the same without a pattern.
-/

namespace PermissionClaims

inductive Dialect where
  | strict
  | trailingDot
  deriving DecidableEq, Repr

namespace Dialect

def ofFlag (allowTrailingDot : Bool) : Dialect :=
  if allowTrailingDot then trailingDot else strict

def allowsTrailingDot : Dialect → Bool
  | strict => false
  | trailingDot => true

@[simp] theorem allowsTrailingDot_ofFlag (b : Bool) : (ofFlag b).allowsTrailingDot = b := by
  cases b <;> rfl

/-- What may stand behind a path. -/
def suffixes : Dialect → List (List Char)
  | strict => [[], ['.', '*']]
  | trailingDot => [[], ['.', '*'], ['.']]

end Dialect

namespace Grammar

def isWordChar (c : Char) : Bool :=
  c.isAlphanum || c = '_'

def isNameChar (c : Char) : Bool :=
  isWordChar c || c = '-'

def verbPattern : Pattern :=
  .atLeastOnce (.one isNameChar)

def segmentPattern : Pattern :=
  .atLeastOnce (.one isNameChar)

def segmentsPattern : Pattern :=
  .seq segmentPattern (.many (.seq (.char '.') segmentPattern))

/-- Hyphens only inside a path: it starts and ends on a word character. -/
def pathPattern : Pattern :=
  .seq (.followedBy isWordChar) (.seq segmentsPattern (.precededBy isWordChar))

def suffixPattern : Dialect → Pattern
  | .strict => .optional (.seq (.char '.') (.char '*'))
  | .trailingDot => .optional (.either (.seq (.char '.') (.char '*')) (.char '.'))

def claimPattern (d : Dialect) : Pattern :=
  .seq (.group "verb" verbPattern) <| .seq (.char ':') <|
    .group "subject" (.either (.char '*') (.seq pathPattern (suffixPattern d)))

def isVerb (cs : List Char) : Bool :=
  verbPattern.accepts cs

/-- The subject of a claim, once read, is a path or, for a claim on everything, empty. -/
def isSubject (cs : List Char) : Bool :=
  cs = [] || pathPattern.accepts cs

/-- The verb of a claim text and the subject as written. -/
def match? (d : Dialect) (cs : List Char) : Option (List Char × List Char) := do
  let groups ← (claimPattern d).fullMatch? cs
  return (← groups.get? "verb", ← groups.get? "subject")

/-- The subject that is meant by one as written: without its suffix, and empty for the star. -/
def normalize (raw : List Char) : List Char :=
  if raw = ['*'] then []
  else match ['.', '*'].isSuffixOf? raw with
    | some path => path
    | none => (['.'].isSuffixOf? raw).getD raw

def Name (cs : List Char) : Prop :=
  cs ≠ [] ∧ ∀ c ∈ cs, isNameChar c = true

/-- Paths: segments joined by dots, with no hyphen at either end. -/
def Path (cs : List Char) : Prop :=
  ∃ segments : List (List Char), segments ≠ [] ∧ (∀ s ∈ segments, Name s) ∧
    cs = ['.'].intercalate segments ∧ cs.head? ≠ some '-' ∧ cs.getLast? ≠ some '-'

/-- How a claim is spelt: its verb, a path or the star, and what stands behind it. -/
structure Spelling where
  verb : List Char
  subject : List Char
  suffix : List Char

namespace Spelling

/-- The subject as written. -/
def raw (s : Spelling) : List Char :=
  s.subject ++ s.suffix

def text (s : Spelling) : List Char :=
  s.verb ++ ':' :: s.raw

structure Fits (d : Dialect) (s : Spelling) : Prop where
  verb : Name s.verb
  body : s.subject = ['*'] ∧ s.suffix = [] ∨ Path s.subject ∧ s.suffix ∈ d.suffixes

end Spelling

/-! ## On values -/

def matchValue? (d : Dialect) (v : Value) : Option (List Char × List Char) :=
  v.asText?.bind fun t => match? d t.content.toList

def isValid (d : Dialect) (v : Value) : Bool :=
  (matchValue? d v).isSome

def isVerbValue (v : Value) : Bool :=
  v.asText?.any fun t => isVerb t.content.toList

def isSubjectValue (v : Value) : Bool :=
  v.asText?.any fun t => isSubject t.content.toList

def normalizeValue? (v : Value) : Option String :=
  v.asText?.map fun t => String.ofList (normalize t.content.toList)

end Grammar

end PermissionClaims
