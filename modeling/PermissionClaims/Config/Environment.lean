import PermissionClaims.Config.Basic
import PermissionClaims.Text.Blank

/-!
# Settings from the environment

Each setting has a variable; one that is not there stands for its default. The flags are looked at
before the level.
-/

namespace PermissionClaims

abbrev Environment := Named String

namespace Environment

inductive Fault where
  | badFlag (name given : String)
  | settings (fault : Config.Fault)

def Fault.message : Fault → String
  | badFlag name given => name ++ " must be a boolean flag, got " ++ (Value.plain given).rendered
  | settings fault => "Invalid claimcore configuration: " ++ fault.message

/-- The variable at fault, where there is one. -/
def Fault.details : Fault → Fields
  | badFlag name _ => [("variable", .plain name)]
  | settings _ => []

def trueWords : List String := ["true", "1", "yes", "on"]

def falseWords : List String := ["false", "0", "no", "off", ""]

def levelVariable : String := "CLAIMCORE_LOG_LEVEL"

def jsonVariable : String := "CLAIMCORE_LOG_JSON"

def dotVariable : String := "CLAIMCORE_ALLOW_TRAILING_DOT"

def get (env : Environment) (name otherwise : String) : String :=
  (env.get? name).getD otherwise

/-- A flag is given by a word in any case, with blanks around it or not. -/
def flag (env : Environment) (name : String) : Except Fault Bool :=
  let given := env.get name "false"
  let word := String.ofList (Text.lower (Text.trim given.toList))
  if word ∈ trueWords then .ok true
  else if word ∈ falseWords then .ok false
  else .error (.badFlag name given)

def config (env : Environment) : Except Fault Config := do
  let level := env.get levelVariable "INFO"
  let json ← env.flag jsonVariable
  let dot ← env.flag dotVariable
  (Config.ofFields [("log_level", .plain level), ("log_json", .bool json),
    ("allow_trailing_dot", .bool dot)]).mapError .settings

end Environment

end PermissionClaims
