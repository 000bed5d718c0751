import PermissionClaims.Claim.Parse
import PermissionClaims.Arguments

/-!
# How a claim can change

A claim is fixed: its fields can neither be set nor erased. What can be had is another claim, from
other components, for everything or from a longer text; a change that fails leaves the claim as it
was.
-/

namespace PermissionClaims

inductive FrozenFault where
  | assign (field : String)
  | erase (field : String)

def FrozenFault.message : FrozenFault → String
  | assign field => "cannot assign to field " ++ (Value.plain field).rendered
  | erase field => "cannot delete field " ++ (Value.plain field).rendered

namespace Claim

inductive Change where
  | assign (field : String) (v : Value)
  | erase (field : String)
  /-- Other components in place of those named. -/
  | replace (fields : Fields)
  /-- The claim on everything, of a given verb or of the same. -/
  | widen (verb : Option Value)
  /-- The text of the claim with a suffix, read again. -/
  | reparse (suffix : String) (d : Dialect)

inductive ChangeFault where
  | frozen (fault : FrozenFault)
  | arguments (fault : ArgumentFault)
  | claim (fault : ClaimFault)

def signature : Signature :=
  ⟨"Claim.__init__", ["verb"], ["subject"], false⟩

/-- A claim of arguments; one without a subject is on everything. -/
def ofArguments (positional : List Value) (named : Fields) : Except ChangeFault Claim := do
  let args ← (signature.bind positional named).mapError .arguments
  let verb := (args.bound.get? "verb").getD .null
  let subject := (args.bound.get? "subject").getD (.plain "")
  (create verb subject).mapError .claim

def components (c : Claim) : Fields :=
  [("verb", .text c.verb), ("subject", .text c.subject)]

def replace (c : Claim) (fields : Fields) : Except ChangeFault Claim :=
  ofArguments [] (fields ++ c.components.filter fun f => !fields.has f.1)

open Log in
def change (c : Claim) : Change → Traced (Except ChangeFault Claim)
  | .assign field _ => return .error (.frozen (.assign field))
  | .erase field => return .error (.frozen (.erase field))
  | .replace fields => return c.replace fields
  | .widen verb => return (globalFor (verb.getD (.text c.verb))).mapError .claim
  | .reparse suffix d => return (← parse d (.plain (c.toText ++ suffix))).mapError .claim

/-- The claim after a change: the one it makes, or the same as before. -/
def after (c : Claim) (change : Change) : Claim :=
  match (c.change change).value with
  | .ok c' => c'
  | .error _ => c

open Log in
/-- Changes one after the other: what each makes of the claim there is, and the claim after it. -/
def changes (c : Claim) : List Change → Traced (List (Except ChangeFault Claim × Claim))
  | [] => return []
  | x :: xs => do
    let result ← c.change x
    let rest ← changes (c.after x) xs
    return (result, c.after x) :: rest

end Claim

end PermissionClaims
