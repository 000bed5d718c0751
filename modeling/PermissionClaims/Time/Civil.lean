/-!
# Calendar dates

Times are counted from the start of 1970, in UTC and without leap seconds. The date of a day is
found in the calendar whose years start in March, so that a leap day is the last day of its year;
its pattern repeats every 400 years.
-/

namespace PermissionClaims.Time

/-- Calendar fields. Months and days of the month count from one, weekdays from Sunday and days of
the year from zero. -/
structure Civil where
  year : Int
  month : Nat
  day : Nat
  hour : Nat
  minute : Nat
  second : Nat
  weekday : Nat
  yearDay : Nat
  deriving DecidableEq, Repr

/-- The days of 400 years. -/
def cycle : Int := 146097

/-- From the start of March of the year zero to the start of 1970. -/
def epoch : Int := 719468

def isLeap (year : Int) : Bool :=
  year % 4 = 0 && (year % 100 ≠ 0 || year % 400 = 0)

def daysOfYear (year : Int) : Nat :=
  if isLeap year then 366 else 365

def monthStarts : List Nat := [0, 31, 59, 90, 120, 151, 181, 212, 243, 273, 304, 334]

def yearDay (year : Int) (month day : Nat) : Nat :=
  monthStarts.getD (month - 1) 0 + day - 1 + if isLeap year ∧ 2 < month then 1 else 0

/-- The date of a day, counted from the start of 1970. -/
def ofDay (day : Int) : Int × Nat × Nat :=
  let shifted := day + epoch
  let rest := (shifted % cycle).toNat
  let year := (rest - rest / 1460 + rest / 36524 - rest / 146096) / 365
  let inYear := rest - (365 * year + year / 4 - year / 100)
  let march := (5 * inYear + 2) / 153
  let month := if march < 10 then march + 3 else march - 9
  let date := inYear - (153 * march + 2) / 5 + 1
  (400 * (shifted / cycle) + year + (if month ≤ 2 then 1 else 0), month, date)

def ofSeconds (time : Int) : Civil :=
  let day := time / 86400
  let second := (time % 86400).toNat
  let (year, month, date) := ofDay day
  { year, month, day := date, hour := second / 3600, minute := second / 60 % 60,
    second := second % 60, weekday := ((day + 4) % 7).toNat, yearDay := yearDay year month date }

end PermissionClaims.Time
