import PermissionClaims.Claim.Parse

/-!
# Queries by text

The relations of `Claim.Relation` and the collections of `Claim.Collection` against a query that
is still a text. What is not claim text is reported and gets the answer that grants nothing.
-/

namespace PermissionClaims.Claim

open Log

variable {α : Type}

def relateText (relation : Relation) (answer : Claim → α) (otherwise : α) (d : Dialect)
    (query : Value) : Traced α := do
  match ← parse d query with
  | .ok q => return answer q
  | .error _ =>
    Traced.note (.unrelated query relation)
    return otherwise

def exactText (c : Claim) : Dialect → Value → Traced Bool :=
  relateText .exact c.exact false

def checkText (c : Claim) : Dialect → Value → Traced Bool :=
  relateText .check c.check false

def directChildText (c : Claim) : Dialect → Value → Traced (Option String) :=
  relateText .directChild c.directChild none

def directDescendantText (c : Claim) : Dialect → Value → Traced (Option String) :=
  relateText .directDescendant c.directDescendant none

def matchText (answer : Claim → α) (otherwise : α) (d : Dialect) (query : Value) : Traced α := do
  match ← parse d query with
  | .ok q => return answer q
  | .error _ =>
    Traced.note (.unmatched query)
    return otherwise

def childrenText (cs : List Claim) : Dialect → Value → Traced (List String) :=
  matchText (children cs) []

def descendantsText (cs : List Claim) : Dialect → Value → Traced (List String) :=
  matchText (descendants cs) []

def checkAnyText (cs : List Claim) : Dialect → Value → Traced Bool :=
  matchText (checkAny cs) false

end PermissionClaims.Claim
