import PermissionClaims.Log.Json
import PermissionClaims.Log.Record
import PermissionClaims.Time.Clock
import PermissionClaims.Time.Pattern

/-!
# Log lines

A record becomes a line by way of its entries: time, level, logger and message, then the caller's
fields, then what it carries of an error. A later entry takes the place of an earlier one of its
name. The line is a JSON object of the entries, or a plain text of the same.
-/

namespace PermissionClaims.Log

inductive LineFault where
  | time (fault : Time.Fault)
  | nullInPattern
  | template (fault : Template.Fault)
  deriving DecidableEq, Repr

def LineFault.message : LineFault → String
  | time fault => fault.message
  | nullInPattern => "embedded null character"
  | template fault => fault.message

/-- How lines are written. Without a pattern the time has its milliseconds. -/
structure Style where
  json : Bool
  pattern : String := ""
  deriving DecidableEq, Repr

namespace Style

def defaultPattern : String := "%Y-%m-%d %H:%M:%S"

def timestamp (s : Style) (time : Int) : Except LineFault String := do
  let seconds ← (Time.seconds time).mapError .time
  if '\x00' ∈ s.pattern.toList then throw .nullInPattern
  return String.ofList
    (if s.pattern = "" then
      Time.write defaultPattern.toList seconds ++
        ',' :: Number.paddedDigits 3 (time % 1000).toNat
    else Time.write s.pattern.toList seconds)

def ownEntries (r : Record) (timestamp message : String) : Named String :=
  [("timestamp", timestamp), ("level", Record.levelName r.level), ("logger", r.logger),
    ("message", message)]

def raisedEntries (r : Record) : Named String :=
  match r.raised with
  | some e => [("exception", e.line)]
  | none => []

def entries (r : Record) (timestamp message : String) : Named String :=
  ((ownEntries r timestamp message).setAll r.extraPreviews).setAll (raisedEntries r)

def plainLine (entries extras : Named String) : String :=
  let entry (name : String) : String := (entries.get? name).getD ""
  let start := ["[" ++ entry "timestamp" ++ "]", entry "level", entry "logger"]
  let fields := extras.map fun e => e.1 ++ "=" ++ e.2
  let line := " ".intercalate (start ++ fields ++ [": " ++ entry "message"])
  match entries.get? "exception" with
  | some text => line ++ "\n" ++ text
  | none => line

/-- The line of a record; its time is written before its message. -/
def line (s : Style) (r : Record) : Except LineFault String := do
  let timestamp ← s.timestamp r.time
  let message ← r.message.mapError .template
  let entries := entries r timestamp message
  return if s.json then String.ofList (Json.ofEntries entries)
    else plainLine entries r.extraPreviews

end Style

end PermissionClaims.Log
