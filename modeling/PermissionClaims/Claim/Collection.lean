import PermissionClaims.Claim.Relation
import PermissionClaims.SortedSet

/-!
# Collections of claims

Sets of claims and of segments are lists in increasing order. Against a query, a collection has the
segments by which its members are reached, and authorizes what one of its members does.
-/

namespace PermissionClaims.Claim

def distinctSorted (cs : List Claim) : List Claim :=
  SortedSet.ofList lt cs

/-- The claims of a list in order; those that are equal stay as they were. -/
def sorted (cs : List Claim) : List Claim :=
  cs.mergeSort le

def countDistinct (cs : List Claim) : Nat :=
  (distinctSorted cs).length

/-- The first of the least claims. -/
def least? : List Claim → Option Claim
  | [] => none
  | c :: cs => some (cs.foldl (fun best c => if c.lt best then c else best) c)

/-- The first of the greatest claims. -/
def greatest? : List Claim → Option Claim
  | [] => none
  | c :: cs => some (cs.foldl (fun best c => if best.lt c then c else best) c)

def collect (relation : Claim → Option String) (cs : List Claim) : List String :=
  SortedSet.ofList (fun s t => s < t) (cs.filterMap relation)

def children (cs : List Claim) (q : Claim) : List String :=
  collect (directChild · q) cs

def descendants (cs : List Claim) (q : Claim) : List String :=
  collect (directDescendant · q) cs

/-- Whether a search came upon an authority, and how many claims it took. -/
structure Search where
  found : Bool
  taken : Nat
  deriving DecidableEq, Repr

def findAuthority (q : Claim) : List Claim → Search
  | [] => ⟨false, 0⟩
  | c :: cs =>
    if c.check q then ⟨true, 1⟩
    else
      let rest := findAuthority q cs
      ⟨rest.found, rest.taken + 1⟩

def checkAny (cs : List Claim) (q : Claim) : Bool :=
  (findAuthority q cs).found

end PermissionClaims.Claim
