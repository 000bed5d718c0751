import PermissionClaims.Value.Render

/-!
# Values as log levels

A value is taken for a level if it has the characters of the level's name.
-/

namespace PermissionClaims

structure NotALevel where
  value : Value

def NotALevel.message (fault : NotALevel) : String :=
  fault.value.rendered ++ " is not a valid LogLevel"

def Value.asLevel (v : Value) : Except NotALevel LogLevel :=
  match v.asText?.bind fun t => LogLevel.ofName? t.content with
  | some l => .ok l
  | none => .error ⟨v⟩

end PermissionClaims
