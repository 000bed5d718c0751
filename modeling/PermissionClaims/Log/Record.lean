import PermissionClaims.Report
import PermissionClaims.Log.Notice
import PermissionClaims.Template.Fill

/-!
# Log records

A record has a template and the values to fill it with, and fields of the caller's own beside those
that every record has. A caller's field cannot have the name of one of these.
-/

namespace PermissionClaims.Log

/-- An error that a record carries: the full name of its kind, and what it says. -/
structure Raised where
  kind : String
  text : String
  deriving DecidableEq, Repr

/-- Times are in milliseconds. -/
structure Record where
  logger : String
  level : Numeral
  template : Value
  values : List Value
  extras : Fields
  raised : Option Raised
  time : Int

/-- A caller's field has the name of one that every record has. -/
structure NameTaken where
  name : String
  deriving DecidableEq, Repr

def NameTaken.message (fault : NameTaken) : String :=
  (Value.plain ("Attempt to overwrite " ++ (Value.plain fault.name).rendered ++
    " in LogRecord")).rendered

def ownNames : List String :=
  ["name", "msg", "args", "levelname", "levelno", "pathname", "filename", "module", "exc_info",
    "exc_text", "stack_info", "lineno", "funcName", "created", "msecs", "relativeCreated", "thread",
    "threadName", "processName", "process", "message", "asctime"]

/-- A name that is accepted from a caller and not shown. -/
def hiddenName : String := "taskName"

namespace Raised

def ofReport (r : Report) : Raised :=
  ⟨r.kind.fullName, r.text⟩

/-- An error of no further kind about a bad value says what it was given. -/
def badValue (given : List Value) : Raised :=
  let text := match given with
    | [] => ""
    | [v] => v.displayed
    | vs => (Value.tuple vs).rendered
  ⟨"ValueError", text⟩

def ofArguments (positional : List Value) (named : Fields) : Except ArgumentFault Raised :=
  if named.isEmpty then .ok (badValue positional) else .error (.noneByName "ValueError")

/-- The line that shows an error; one that says nothing is shown by its kind. -/
def line (r : Raised) : String :=
  if r.text = "" then r.kind else r.kind ++ ": " ++ r.text

end Raised

namespace Record

def make (r : Record) : Except NameTaken Record :=
  match r.extras.find? fun e => e.1 ∈ ownNames with
  | some e => .error ⟨e.1⟩
  | none => .ok r

def ofNotice (time : Int) (n : Notice) : Record :=
  { logger := n.logger, level := n.level.numeral, template := .plain n.template,
    values := n.fillings.map .plain, extras := [], raised := none, time }

/-- The message of a record: its template, filled if there are values at all. -/
def message (r : Record) : Except Template.Fault String :=
  match r.values with
  | [] => .ok r.template.displayed
  | vs => (Template.fill r.template.display vs).map String.ofList

def levelName (level : Numeral) : String :=
  match LogLevel.ofSeverity? level.toInt with
  | some l => l.name
  | none => if level.toInt = 0 then "NOTSET" else "Level " ++ String.ofList level.toList

def extraPreviews (r : Record) : Named String :=
  (r.extras.filter fun e => e.1 ≠ hiddenName).map fun e =>
    (e.1, String.ofList (preview defaultLimit e.2))

end Record

end PermissionClaims.Log
