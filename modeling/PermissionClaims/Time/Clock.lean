import PermissionClaims.Number.Binary64
import PermissionClaims.Time.Civil

/-!
# The clock

The clock counts seconds since the start of 1970 in a number of the binary64 format, so that far
from there a time in milliseconds is off by the rounding. It has bounds, and so have the years of
its calendar.
-/

namespace PermissionClaims.Time

inductive Fault where
  /-- The time is no number of the format. -/
  | beyondNumbers
  | beyondClock
  | beyondCalendar
  /-- The calendar has the year, but it cannot be written. -/
  | beyondYears
  deriving DecidableEq, Repr

def Fault.message : Fault → String
  | beyondNumbers => "integer division result too large for a float"
  | beyondClock => "timestamp out of range for platform time_t"
  | beyondCalendar => "[Errno 75] Value too large for defined data type"
  | beyondYears => "signed integer is greater than maximum"

def clockBound : Int := 0x8000000000000000

def yearBound : Int := 0x80000000

def firstYear : Int := 1900

/-- The whole seconds on the clock at a time in milliseconds. -/
def clock? (time : Int) : Option Int :=
  (Binary64.ofRatio (time < 0) time.natAbs 1000).floor?

def yearOf (seconds : Int) : Int :=
  (ofDay (seconds / 86400)).1

/-- Why the date at some seconds cannot be written, if it cannot. -/
def fault? (seconds : Int) : Option Fault :=
  let year := yearOf seconds
  if seconds < -clockBound ∨ clockBound < seconds then some .beyondClock
  else if year - firstYear < -yearBound ∨ yearBound ≤ year - firstYear then some .beyondCalendar
  else if yearBound ≤ year then some .beyondYears
  else none

/-- The whole seconds at a time in milliseconds whose date can be written. -/
def seconds (time : Int) : Except Fault Int :=
  match clock? time with
  | none => .error .beyondNumbers
  | some n =>
    match fault? n with
    | some f => .error f
    | none => .ok n

end PermissionClaims.Time
