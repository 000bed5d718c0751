import PermissionClaims.Config.Fault
import PermissionClaims.Text.CaseMap

/-!
# Settings

Three settings, each with a default: the log level, whether log lines are JSON, and whether claim
text may end in a dot. They are checked together when a configuration is made and cannot be set
later.
-/

namespace PermissionClaims

structure Config where
  logLevel : LogLevel := .info
  logJson : Bool := false
  allowTrailingDot : Bool := false
  deriving DecidableEq, Repr

namespace Config

/-- A level is given as such or by its name in any case. -/
def readLevel : Value → Except Cause LogLevel
  | .text (.level l) => .ok l
  | .text (.plain s) =>
    match LogLevel.ofName? (String.ofList (Text.upper s.toList)) with
    | some l => .ok l
    | none => .error (.unknownLevel s)
  | _ => .error .notALevel

def falseWords : List String := ["0", "off", "f", "false", "n", "no"]

def trueWords : List String := ["1", "on", "t", "true", "y", "yes"]

def readWord (cs : List Char) : Except Cause Bool :=
  let word := String.ofList (cs.map Char.toLower)
  if word ∈ falseWords then .ok false
  else if word ∈ trueWords then .ok true
  else .error .unreadableFlag

def readNumber (n : Int) : Except Cause Bool :=
  if n = 0 then .ok false else if n = 1 then .ok true else .error .unreadableFlag

/-- Whether a number fits a machine word; a larger one is not taken for a flag at all. -/
def fitsWord (n : Int) : Bool :=
  -0x8000000000000000 ≤ n && n < 0x8000000000000000

/-- Whether a number with a point lies within the bounds of a machine word. The lower bound itself
does not count, as it might stand for a number below it. -/
def withinWord (n : Int) : Bool :=
  -0x8000000000000000 < n && n < 0x8000000000000000

def readFlag : Value → Except Cause Bool
  | .bool b => .ok b
  | .int n => if fitsWord n.toInt then readNumber n.toInt else .error .notAFlag
  | .float (.finite negative m e) =>
    let n := Binary64.truncate negative m e
    if (Binary64.finite negative m e).equalsInt n ∧ withinWord n then readNumber n
    else .error .notAFlag
  | .text t => readWord t.content.toList
  | .bytes b => readWord (b.map fun x => Char.ofNat x.toNat)
  | _ => .error .notAFlag

def read {α : Type} (reader : Value → Except Cause α) (name : String) (otherwise : α)
    (fields : Fields) : Except SettingFault α :=
  match fields.get? name with
  | none => .ok otherwise
  | some v => (reader v).mapError fun cause => ⟨name, v, cause⟩

def names : List String := ["log_level", "log_json", "allow_trailing_dot"]

def unknown (fields : Fields) : List SettingFault :=
  (fields.filter fun f => f.1 ∉ names).map fun f => ⟨f.1, f.2, .unknownSetting⟩

def faultsOf {α : Type} : Except SettingFault α → List SettingFault
  | .ok _ => []
  | .error f => [f]

/-- The configuration of some settings, or all of their faults: of the known ones in their order,
then of the others as they were given. -/
def ofFields (fields : Fields) : Except Fault Config :=
  let level := read readLevel "log_level" .info fields
  let json := read readFlag "log_json" false fields
  let dot := read readFlag "allow_trailing_dot" false fields
  match level, json, dot, unknown fields with
  | .ok l, .ok j, .ok d, [] => .ok ⟨l, j, d⟩
  | level, json, dot, others => .error ⟨faultsOf level ++ faultsOf json ++ faultsOf dot ++ others⟩

/-- A name with an underscore in front is an object's own, and no setting has one. Those with two
can be of how the object is made, which is left out here. -/
def isOwnName (name : String) : Bool :=
  name.toList.head? = some '_'

/-- Setting an attribute of a configuration, which fails for every name but the object's own. What
is set by such a name is no part of the configuration. -/
def assign (c : Config) (name : String) (v : Value) : Except Fault Config :=
  if isOwnName name then .ok c else .error ⟨[⟨name, v, .frozen⟩]⟩

/-- Attributes set one after the other: what comes of each, and the configuration after it. -/
def assignAll (c : Config) : Fields → List (Except Fault Config × Config)
  | [] => []
  | (name, v) :: rest =>
    let result := c.assign name v
    let next := result.toOption.getD c
    (result, next) :: next.assignAll rest

def showFlag (b : Bool) : String :=
  (Value.bool b).rendered

def render (c : Config) : String :=
  "ClaimConfig(log_level=" ++ (Value.level c.logLevel).rendered ++ ", log_json=" ++
    showFlag c.logJson ++ ", allow_trailing_dot=" ++ showFlag c.allowTrailingDot ++ ")"

end Config

end PermissionClaims
