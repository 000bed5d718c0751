import PermissionClaims.Claim.Change
import PermissionClaims.Config.Environment
import PermissionClaims.Log.Line
import PermissionClaims.Value.Level

/-!
# Failures

All that a call can fail with. Faults of claims and of the environment also have a report.
-/

namespace PermissionClaims

inductive Failure where
  | claim (fault : ClaimFault)
  | environment (fault : Environment.Fault)
  | settings (fault : Config.Fault)
  | arguments (fault : ArgumentFault)
  | frozen (fault : FrozenFault)
  | noElements (fault : NoElements)
  | notALevel (fault : NotALevel)
  | line (fault : Log.LineFault)
  | nameTaken (fault : Log.NameTaken)

namespace Failure

def message : Failure → String
  | claim f => f.message
  | environment f => f.message
  | settings f => f.message
  | arguments f => f.message
  | frozen f => f.message
  | noElements f => f.message
  | notALevel f => f.message
  | line f => f.message
  | nameTaken f => f.message

def report? : Failure → Option Report
  | claim f => some (Report.ofClaimFault f)
  | environment f =>
    some (Report.make .configuration (some (.plain f.message)) none f.details)
  | _ => none

def ofChangeFault : Claim.ChangeFault → Failure
  | .frozen f => frozen f
  | .arguments f => arguments f
  | .claim f => claim f

end Failure

end PermissionClaims
