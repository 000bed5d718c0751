import PermissionClaims.Time.Stretch
import PermissionClaims.Time.Week

/-!
# Fields of a written time

Which letter stands for what. A letter stands for a number, for a text, for the distance from
universal time, which is nothing here, or for several fields in a usual arrangement.
-/

namespace PermissionClaims.Time

def weekdayNames : List String :=
  ["Sunday", "Monday", "Tuesday", "Wednesday", "Thursday", "Friday", "Saturday"]

def monthNames : List String :=
  ["January", "February", "March", "April", "May", "June", "July", "August", "September",
    "October", "November", "December"]

def nameIn (names : List String) (i : Nat) : List Char :=
  (names.getD i "?").toList

def weekdayName (t : Civil) : List Char :=
  nameIn weekdayNames t.weekday

def monthName (t : Civil) : List Char :=
  nameIn monthNames (t.month - 1)

def halfDay (t : Civil) : List Char :=
  if t.hour < 12 then ['A', 'M'] else ['P', 'M']

def hourOfHalfDay (t : Civil) : Int :=
  if t.hour % 12 = 0 then 12 else t.hour % 12

/-- A field: a number with its usual filling and its least digits, a text, or the distance from
universal time. -/
inductive Field where
  | number (filling : Filling) (digits : Nat) (n : Int)
  | text (casing : Casing) (cs : List Char)
  | distance
  deriving DecidableEq, Repr

/-- The fields of single letters, for a time in seconds. -/
def field? (time : Int) (t : Civil) (letter : Char) : Option Field :=
  let two := Field.number .zeros 2
  let one := Field.number .zeros 1
  match letter with
  | 'a' => some (.text .raised ((weekdayName t).take 3))
  | 'A' => some (.text .raised (weekdayName t))
  | 'b' => some (.text .raised ((monthName t).take 3))
  | 'B' => some (.text .raised (monthName t))
  | 'C' => some (one (t.year / 100))
  | 'd' => some (two t.day)
  | 'e' => some (.number .blanks 2 t.day)
  | 'g' => some (two ((week t).1 % 100))
  | 'G' => some (one (week t).1)
  | 'h' => some (.text .raised ((monthName t).take 3))
  | 'H' => some (two t.hour)
  | 'I' => some (two (hourOfHalfDay t))
  | 'j' => some (.number .zeros 3 (t.yearDay + 1))
  | 'k' => some (.number .blanks 2 t.hour)
  | 'l' => some (.number .blanks 2 (hourOfHalfDay t))
  | 'm' => some (two t.month)
  | 'M' => some (two t.minute)
  | 'n' => some (.text .plain ['\n'])
  | 'p' => some (.text .lowered (halfDay t))
  | 'P' => some (.text .small (halfDay t))
  | 's' => some (.text .plain (Number.signedDigits time))
  | 'S' => some (two t.second)
  | 't' => some (.text .plain ['\t'])
  | 'u' => some (one (if t.weekday = 0 then 7 else t.weekday))
  | 'U' => some (two (weekStarts t 0))
  | 'V' => some (two (week t).2)
  | 'w' => some (one t.weekday)
  | 'W' => some (two (weekStarts t 1))
  | 'y' => some (two (t.year % 100))
  | 'Y' => some (one t.year)
  | 'z' => some .distance
  | 'Z' => some (.text .lowered "UTC".toList)
  | '%' => some (.text .plain ['%'])
  | _ => none

def arrangement? (letter : Char) : Option String :=
  match letter with
  | 'c' => some "%a %b %e %H:%M:%S %Y"
  | 'D' => some "%m/%d/%y"
  | 'F' => some "%Y-%m-%d"
  | 'r' => some "%I:%M:%S %p"
  | 'R' => some "%H:%M"
  | 'T' => some "%H:%M:%S"
  | 'x' => some "%m/%d/%y"
  | 'X' => some "%H:%M:%S"
  | _ => none

def Variant.excluded : Variant → List Char
  | era => "AaBbDdeFGgHhIjklMmSUVWw".toList
  | digits => "AacDFXxY".toList

end PermissionClaims.Time
