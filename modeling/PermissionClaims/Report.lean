import PermissionClaims.Claim.Basic
import PermissionClaims.Arguments

/-!
# Error reports

An error of the library is reported with a message, a stable code and details by name. Both message
and code have a default, which stands in wherever they are not given or empty. A report on a claim
also keeps what was given as one, which is the first of its details.
-/

namespace PermissionClaims

inductive ReportKind where
  | general
  | claim
  | configuration
  deriving DecidableEq, Repr

namespace ReportKind

def code : ReportKind → String
  | general => "INTERNAL_ERROR"
  | claim => "CLAIM_SYNTAX_ERROR"
  | configuration => "CONFIGURATION_ERROR"

def name : ReportKind → String
  | general => "ClaimError"
  | claim => "ClaimSyntaxError"
  | configuration => "ConfigurationError"

def fullName (kind : ReportKind) : String :=
  "claimcore.exceptions." ++ kind.name

end ReportKind

structure Report where
  kind : ReportKind
  message : Value
  code : Value
  details : Fields
  /-- What was given as a claim, in a report on one. -/
  given? : Option Value

namespace Report

def defaultMessage : String := "An internal error occurred"

/-- A value, or a text in its place if it is not given or empty. -/
def orDefault (v : Option Value) (s : String) : Value :=
  match v with
  | some v => if v.isTruthy then v else .plain s
  | none => .plain s

def make (kind : ReportKind) (message code : Option Value) (details : Fields) : Report :=
  ⟨kind, orDefault message defaultMessage, orDefault code kind.code, details, none⟩

def text (r : Report) : String :=
  r.message.displayed

/-- A report on a claim is at the same time one on a bad value. -/
def isBadValue (r : Report) : Bool :=
  r.kind = .claim

def ofClaimFault (fault : ClaimFault) : Report :=
  { make .claim (some (.plain fault.message)) none [("claim", fault.given)] with
    given? := some fault.given }

def signature : Signature :=
  ⟨"ClaimError.__init__", [], ["message", "code"], true⟩

def claimSignature : Signature :=
  ⟨"ClaimSyntaxError.__init__", ["claim_str"], ["message"], true⟩

def fullOperation : String :=
  ReportKind.general.fullName ++ ".__init__"

/-- A report from arguments. One on a claim says by default that the claim is not valid, and takes
its code from among the details. -/
def ofArguments (kind : ReportKind) (positional : List Value) (named : Fields) :
    Except ArgumentFault Report := do
  match kind with
  | .claim =>
    let args ← claimSignature.bind positional named
    if args.others.has "claim" then throw (.taken fullOperation "claim")
    let given := (args.bound.get? "claim_str").getD .null
    let message := orDefault (args.bound.get? "message") (ClaimFault.notClaimText given).message
    let details := args.others.filter fun f => f.1 ≠ "code"
    return { make kind (some message) (args.others.get? "code") (("claim", given) :: details) with
      given? := some given }
  | _ =>
    let args ← signature.bind positional named
    return make kind (args.bound.get? "message") (args.bound.get? "code") args.others

end Report

end PermissionClaims
