import PermissionClaims.Claim.Basic

/-!
# Relations between a held claim and a queried one

A held claim authorizes those of its verb that lie at its subject or below it. The other way round,
a held claim below a queried one makes known the segment by which it is reached from there.
-/

namespace PermissionClaims

inductive Relation where
  | exact
  | check
  | directChild
  | directDescendant
  deriving DecidableEq, Repr

def Relation.name : Relation → String
  | exact => "exact"
  | check => "check"
  | directChild => "direct_child"
  | directDescendant => "direct_descendant"

namespace Claim

/-- Whether two claims are the same, by their characters. -/
def exact (c q : Claim) : Bool :=
  c.verb.content = q.verb.content && c.subject.content = q.subject.content

/-- What is left of a path below another one. -/
def below? (path base : List Char) : Option (List Char) :=
  (base ++ ['.']).isPrefixOf? path

/-- Whether a held claim authorizes a queried one. -/
def check (c q : Claim) : Bool :=
  c.verb.content = q.verb.content &&
    (c.isGlobal ||
      !q.isGlobal &&
        (c.subject.content = q.subject.content ||
          (below? q.subject.content.toList c.subject.content.toList).isSome))

/-- The part of the held subject that is strictly below the queried one. -/
def remainder? (c q : Claim) : Option (List Char) :=
  if c.verb.content ≠ q.verb.content ∨ c.isGlobal then none
  else if q.isGlobal then some c.subject.content.toList
  else below? c.subject.content.toList q.subject.content.toList

/-- The segment of a held claim exactly one level below the queried one. -/
def directChild (c q : Claim) : Option String :=
  (remainder? c q).bind fun rest => if '.' ∈ rest then none else some (String.ofList rest)

/-- The first segment of a held claim below the queried one, however deep the held one goes. -/
def directDescendant (c q : Claim) : Option String :=
  (remainder? c q).map fun rest => String.ofList (rest.takeWhile (· ≠ '.'))

end Claim

end PermissionClaims
