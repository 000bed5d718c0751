import PermissionClaims.Value.Render

/-!
# Faults in settings

A fault names the setting, the value that was given for it and what is wrong with it. All faults of
one set of settings are told together, with a short form of each value.
-/

namespace PermissionClaims.Config

inductive Cause where
  | unknownLevel (name : String)
  | notALevel
  | unreadableFlag
  | notAFlag
  | unknownSetting
  | frozen
  deriving DecidableEq, Repr

structure SettingFault where
  setting : String
  given : Value
  cause : Cause

structure Fault where
  faults : List SettingFault

def Cause.code : Cause → String
  | unknownLevel _ => "value_error"
  | notALevel => "value_error"
  | unreadableFlag => "bool_parsing"
  | notAFlag => "bool_type"
  | unknownSetting => "extra_forbidden"
  | frozen => "frozen_instance"

def levelNames : String :=
  (Value.list (LogLevel.all.map fun l => .plain l.name)).rendered

def SettingFault.message (f : SettingFault) : String :=
  match f.cause with
  | .unknownLevel name =>
    "Value error, Invalid log level: " ++ name ++ ". Must be one of " ++ levelNames
  | .notALevel =>
    "Value error, Log level must be string or LogLevel enum, got <class '" ++ f.given.kind ++ "'>"
  | .unreadableFlag => "Input should be a valid boolean, unable to interpret input"
  | .notAFlag => "Input should be a valid boolean"
  | .unknownSetting => "Extra inputs are not permitted"
  | .frozen => "Instance is frozen"

/-- The longest start of a text that has at most `size` bytes in UTF-8. -/
def takeBytes (size : Nat) : List Char → List Char
  | [] => []
  | c :: cs => if c.utf8Size ≤ size then c :: takeBytes (size - c.utf8Size) cs else []

def bytesOf (cs : List Char) : Nat :=
  cs.foldr (fun c size => c.utf8Size + size) 0

/-- A rendered value of up to fifty bytes is shown whole, and a longer one by the first twenty-five
and the last twenty-four, as far as these are whole characters. -/
def shortened (cs : List Char) : List Char :=
  if bytesOf cs ≤ 50 then cs
  else takeBytes 25 cs ++ "...".toList ++ (takeBytes 24 cs.reverse).reverse

/-- The name of a setting in a message; one with a dot might be taken for a path. -/
def SettingFault.location (f : SettingFault) : String :=
  if f.setting.contains '.' then "\x60" ++ f.setting ++ "\x60" else f.setting

def helpAddress : String := "https://errors.pydantic.dev/2.14/v/"

def SettingFault.lines (f : SettingFault) : List String :=
  [f.location,
    "  " ++ f.message ++ " [type=" ++ f.cause.code ++ ", input_value=" ++
      String.ofList (shortened f.given.render) ++ ", input_type=" ++ f.given.kind ++ "]",
    "    For further information visit " ++ helpAddress ++ f.cause.code]

def Fault.message (f : Fault) : String :=
  let count := f.faults.length
  let title := toString count ++ " validation error" ++ (if count = 1 then "" else "s") ++
    " for ClaimConfig"
  "\n".intercalate (title :: f.faults.flatMap SettingFault.lines)

end PermissionClaims.Config
