import PermissionClaims.Access
import PermissionClaims.Failure

/-!
# Calls of the library

The calls on which the library gives notices: each has a value from outside, or a collection of
them. Of the answers a claim and a truth value are kept, and of any other one that there was one.
-/

namespace PermissionClaims.Log

inductive Answer where
  | done
  | claim (c : Claim)
  | truth (b : Bool)

inductive Call where
  | parse (d : Dialect) (v : Value)
  | parseMany (d : Dialect) (texts : Value)
  | exactText (c : Claim) (d : Dialect) (query : Value)
  | checkText (c : Claim) (d : Dialect) (query : Value)
  | directChildText (c : Claim) (d : Dialect) (query : Value)
  | directDescendantText (c : Claim) (d : Dialect) (query : Value)
  | childrenText (cs : List Claim) (d : Dialect) (query : Value)
  | descendantsText (cs : List Claim) (d : Dialect) (query : Value)
  | checkAnyText (cs : List Claim) (d : Dialect) (query : Value)
  | heldClaims (d : Dialect) (permissions : Value)
  | hasAccess (d : Dialect) (permissions request : Value)
  | visibleChildren (d : Dialect) (permissions request : Value)
  | visibleDescendants (d : Dialect) (permissions request : Value)

def parseCall (d : Dialect) (v : Value) : Traced (Except Failure Answer) := do
  return ((← Claim.parse d v).mapError .claim).map .claim

def parseManyCall (d : Dialect) (texts : Value) : Traced (Except Failure Answer) := do
  match ← Claim.parseElements d texts with
  | .ok reading => return (reading.result.mapError .claim).map fun _ => .done
  | .error fault => return .error (.noElements fault)

def truthCall (x : Traced Bool) : Traced (Except Failure Answer) :=
  (fun b => .ok (.truth b)) <$> x

def doneCall {α : Type} (x : Traced α) : Traced (Except Failure Answer) :=
  (fun _ => .ok .done) <$> x

/-- A call that goes through permissions. -/
def elementsCall {α : Type} (answer : α → Answer) (x : Traced (Except NoElements α)) :
    Traced (Except Failure Answer) :=
  (fun r => (r.mapError .noElements).map answer) <$> x

def Call.run : Call → Traced (Except Failure Answer)
  | parse d v => parseCall d v
  | parseMany d texts => parseManyCall d texts
  | exactText c d query => truthCall (c.exactText d query)
  | checkText c d query => truthCall (c.checkText d query)
  | directChildText c d query => doneCall (c.directChildText d query)
  | directDescendantText c d query => doneCall (c.directDescendantText d query)
  | childrenText cs d query => doneCall (Claim.childrenText cs d query)
  | descendantsText cs d query => doneCall (Claim.descendantsText cs d query)
  | checkAnyText cs d query => truthCall (Claim.checkAnyText cs d query)
  | heldClaims d permissions => elementsCall (fun _ => .done) (Access.heldClaims d permissions)
  | hasAccess d permissions request =>
    elementsCall .truth (Access.hasAccess d permissions request)
  | visibleChildren d permissions request =>
    elementsCall (fun _ => .done) (Access.visibleChildren d permissions request)
  | visibleDescendants d permissions request =>
    elementsCall (fun _ => .done) (Access.visibleDescendants d permissions request)

end PermissionClaims.Log
