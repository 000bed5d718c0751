import PermissionClaims.Number.Decimal

/-!
# Log levels
-/

namespace PermissionClaims

inductive LogLevel where
  | debug
  | info
  | warning
  | error
  | critical
  deriving DecidableEq, Repr

namespace LogLevel

def all : List LogLevel :=
  [debug, info, warning, error, critical]

def name : LogLevel → String
  | debug => "DEBUG"
  | info => "INFO"
  | warning => "WARNING"
  | error => "ERROR"
  | critical => "CRITICAL"

def severity : LogLevel → Int
  | debug => 10
  | info => 20
  | warning => 30
  | error => 40
  | critical => 50

theorem severity_pos (l : LogLevel) : 0 < l.severity := by
  cases l <;> decide

def numeral (l : LogLevel) : Numeral :=
  ⟨l.severity, by cases l <;> decide⟩

def ofName? (s : String) : Option LogLevel :=
  all.find? fun level => level.name = s

@[simp] theorem ofName?_name (l : LogLevel) : ofName? l.name = some l := by
  cases l <;> rfl

theorem ofName?_eq_some_iff {s : String} {l : LogLevel} : ofName? s = some l ↔ l.name = s := by
  refine ⟨fun h => ?_, fun h => h ▸ ofName?_name l⟩
  unfold ofName? at h
  simpa using List.find?_some h

/-- A level is told by its name. -/
theorem name_inj {l l' : LogLevel} : l.name = l'.name ↔ l = l' := by
  refine ⟨fun h => ?_, congrArg name⟩
  have := congrArg ofName? h
  simpa using this

def ofSeverity? (n : Int) : Option LogLevel :=
  all.find? fun level => level.severity = n

end LogLevel

end PermissionClaims
