import PermissionClaims.Claim.Relation
import PermissionClaims.Log.Preview

/-!
# Notices

What the library reports to the log while it answers. Every notice is about one value from outside,
of which its message has a preview and nothing else. The preview is put into a template like any
other text, so that a percent sign in it starts no place.
-/

namespace PermissionClaims

namespace Log

inductive Notice where
  /-- A value is not claim text. -/
  | rejected (given : Value)
  /-- A query that is not claim text stands in no relation. -/
  | unrelated (query : Value) (relation : Relation)
  /-- A query that is not claim text matches nothing in a collection. -/
  | unmatched (query : Value)
  /-- A request that is not claim text is denied. -/
  | denied (request : Value)
  /-- A permission that is not claim text is passed over. -/
  | ignored (permission : Value)

namespace Notice

def logger : Notice → String
  | rejected _ => "claimcore.claims.parser"
  | unrelated _ _ => "claimcore.claims.algebra"
  | unmatched _ => "claimcore.claims.sets"
  | denied _ => "claimcore.claims.access"
  | ignored _ => "claimcore.claims.access"

/-- A permission is on record, so one that cannot be used calls for attention. -/
def level : Notice → LogLevel
  | ignored _ => .warning
  | _ => .debug

def subject : Notice → Value
  | rejected v => v
  | unrelated v _ => v
  | unmatched v => v
  | denied v => v
  | ignored v => v

def template : Notice → String
  | rejected _ => "rejected claim text %s"
  | unrelated _ _ => "invalid query %s for %s, no relation"
  | unmatched _ => "invalid query %s, nothing matches"
  | denied _ => "denying malformed request %s"
  | ignored _ => "ignoring malformed permission %s"

def fillings (n : Notice) : List String :=
  let shown := String.ofList (preview defaultLimit n.subject)
  match n with
  | unrelated _ r => [shown, r.name]
  | _ => [shown]

/-- The words before and after the preview of the value. -/
def frame : Notice → String × String
  | rejected _ => ("rejected claim text ", "")
  | unrelated _ r => ("invalid query ", " for " ++ r.name ++ ", no relation")
  | unmatched _ => ("invalid query ", ", nothing matches")
  | denied _ => ("denying malformed request ", "")
  | ignored _ => ("ignoring malformed permission ", "")

def message (n : Notice) : String :=
  n.frame.1 ++ String.ofList (preview defaultLimit n.subject) ++ n.frame.2

end Notice

end Log

end PermissionClaims
