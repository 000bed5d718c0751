import PermissionClaims.Claim.Basic
import PermissionClaims.Claim.Collection
import PermissionClaims.Log.Traced
import PermissionClaims.Value.Elements

/-!
# Reading claims

A single value is read as claim text, and what is not claim text is reported. A collection of values
is read as a whole: the first value that is not claim text ends it.
-/

namespace PermissionClaims.Claim

open Log

def parse (d : Dialect) (v : Value) : Traced (Except ClaimFault Claim) := do
  match Grammar.matchValue? d v with
  | some (verb, raw) =>
    return create (.plain (String.ofList verb)) (.plain (String.ofList (Grammar.normalize raw)))
  | none =>
    Traced.note (.rejected v)
    return .error (.notClaimText v)

/-- What came of reading values one by one, and how many of them were taken. -/
structure Reading (α : Type) where
  result : Except ClaimFault α
  taken : Nat

/-- Reads claims up to the first value that is none. -/
def readAll (d : Dialect) : List Value → Traced (Reading (List Claim))
  | [] => return ⟨.ok [], 0⟩
  | v :: vs => do
    match ← parse d v with
    | .error fault => return ⟨.error fault, 1⟩
    | .ok c =>
      let rest ← readAll d vs
      return ⟨rest.result.map (c :: ·), rest.taken + 1⟩

def parseMany (d : Dialect) (texts : List Value) : Traced (Reading (List Claim)) := do
  let read ← readAll d texts
  return ⟨read.result.map distinctSorted, read.taken⟩

def parseElements (d : Dialect) (texts : Value) :
    Traced (Except NoElements (Reading (List Claim))) := do
  match texts.elements with
  | .error fault => return .error fault
  | .ok vs => return .ok (← parseMany d vs)

end PermissionClaims.Claim
