import PermissionClaims.Claim.Query

/-!
# Access decisions

Permissions arrive as a value whose elements are claim texts. An element that is none is reported
and authorizes nothing. A request that is not claim text is denied before the permissions are looked
at.
-/

namespace PermissionClaims.Access

open Log

/-- The claims among some values, in the order of the values. -/
def readValid (d : Dialect) : List Value → Traced (List Claim)
  | [] => return []
  | v :: vs => do
    match ← Claim.parse d v with
    | .ok c => return c :: (← readValid d vs)
    | .error _ =>
      Traced.note (.ignored v)
      readValid d vs

/-- The claims that are held by permission, in order and each once. -/
def heldClaims (d : Dialect) (permissions : Value) : Traced (Except NoElements (List Claim)) := do
  match permissions.elements with
  | .error fault => return .error fault
  | .ok vs => return .ok (Claim.distinctSorted (← readValid d vs))

variable {α : Type}

/-- What the held claims answer to a request; `otherwise` if it is not claim text. -/
def respond (answer : List Claim → Claim → α) (otherwise : α) (d : Dialect)
    (permissions request : Value) : Traced (Except NoElements α) := do
  match ← Claim.parse d request with
  | .error _ =>
    Traced.note (.denied request)
    return .ok otherwise
  | .ok q => return (← heldClaims d permissions).map fun held => answer held q

def hasAccess : Dialect → Value → Value → Traced (Except NoElements Bool) :=
  respond Claim.checkAny false

/-- The segments that permissions reach exactly one level below a query. -/
def visibleChildren : Dialect → Value → Value → Traced (Except NoElements (List String)) :=
  respond Claim.children []

/-- The segments that permissions reach anywhere below a query, up to the next level. -/
def visibleDescendants : Dialect → Value → Value → Traced (Except NoElements (List String)) :=
  respond Claim.descendants []

end PermissionClaims.Access
