import PermissionClaims.Claim.Grammar
import PermissionClaims.Value.Render

/-!
# Claims

A claim is a verb over a subject, which is a path of segments or, for a claim on everything, empty.
Claims are compared and ordered by the characters of verb and subject.
-/

namespace PermissionClaims

inductive ClaimFault where
  | notClaimText (given : Value)
  | components (verb subject : Value)

namespace ClaimFault

/-- What was given as a claim; components are taken as a text. -/
def given : ClaimFault → Value
  | notClaimText v => v
  | components verb subject => .plain (String.ofList (verb.display ++ ':' :: subject.display))

def message : ClaimFault → String
  | notClaimText v => "the given claim " ++ v.rendered ++ " is not valid"
  | components verb subject =>
    "invalid claim components verb=" ++ verb.rendered ++ " subject=" ++ subject.rendered

end ClaimFault

structure Claim where
  verb : Text
  subject : Text
  deriving DecidableEq, Repr

namespace Claim

def WellFormed (c : Claim) : Prop :=
  Grammar.isVerb c.verb.content.toList = true ∧ Grammar.isSubject c.subject.content.toList = true

instance (c : Claim) : Decidable c.WellFormed :=
  inferInstanceAs (Decidable (_ ∧ _))

def create (verb subject : Value) : Except ClaimFault Claim :=
  match verb, subject with
  | .text v, .text s =>
    if Grammar.isVerb v.content.toList && Grammar.isSubject s.content.toList then .ok ⟨v, s⟩
    else .error (.components verb subject)
  | _, _ => .error (.components verb subject)

theorem create_eq_ok_iff {verb subject : Value} {c : Claim} :
    create verb subject = .ok c ↔
      verb = .text c.verb ∧ subject = .text c.subject ∧ c.WellFormed := by
  constructor
  · intro h
    unfold create at h
    split at h
    · split at h
      · cases h
        simp_all [WellFormed]
      · cases h
    · cases h
  · rintro ⟨rfl, rfl, hv, hs⟩
    simp [create, hv, hs]

theorem create_plain {v s : String} (hv : Grammar.isVerb v.toList = true)
    (hs : Grammar.isSubject s.toList = true) :
    create (.plain v) (.plain s) = .ok ⟨.plain v, .plain s⟩ :=
  create_eq_ok_iff.2 ⟨rfl, rfl, hv, hs⟩

def lt (c d : Claim) : Bool :=
  c.verb.content < d.verb.content ||
    c.verb.content = d.verb.content && c.subject.content < d.subject.content

def le (c d : Claim) : Bool :=
  !d.lt c

def globalFor (verb : Value) : Except ClaimFault Claim :=
  create verb (.plain "")

def isGlobal (c : Claim) : Bool :=
  c.subject.content = ""

theorem isGlobal_iff {c : Claim} : c.isGlobal = true ↔ c.subject.content.toList = [] := by
  rw [isGlobal, decide_eq_true_eq, ← String.toList_inj, String.toList_empty]

/-- The subject as a path of segments, from the top down; none for a claim on everything. -/
def segments (c : Claim) : List String :=
  if c.isGlobal then [] else (c.subject.content.toList.splitOn '.').map String.ofList

/-- The claim on what is one segment further down. -/
def extend (c : Claim) (segment : String) : Claim :=
  ⟨c.verb, .plain (if c.isGlobal then segment else c.subject.content ++ "." ++ segment)⟩

def text (c : Claim) : List Char :=
  c.verb.display ++ ':' :: (if c.isGlobal then ['*'] else c.subject.display)

def toText (c : Claim) : String :=
  String.ofList c.text

def render (c : Claim) : String :=
  String.ofList ("Claim(verb=".toList ++ c.verb.render ++ ", subject=".toList ++ c.subject.render ++
    [')'])

end Claim

end PermissionClaims
