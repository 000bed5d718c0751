import PermissionClaims.Time.Civil

/-!
# Weeks

Weeks that start on Monday are numbered within the year that has their Thursday, which is not always
the year of the day.
-/

namespace PermissionClaims.Time

/-- The days from the start of the first week of a year to a day of it. -/
def weekDays (yearDay : Int) (weekday : Nat) : Int :=
  yearDay - (yearDay - weekday + 382) % 7 + 3

/-- The year of a week is a number of 32 bits, where the least follows the greatest. -/
def wrappedYear (year : Int) : Int :=
  year.bmod 0x100000000

/-- The week of a day and the year that the week belongs to. -/
def week (t : Civil) : Int × Int :=
  let days := weekDays t.yearDay t.weekday
  if days < 0 then
    (t.year - 1, weekDays (t.yearDay + daysOfYear (t.year - 1)) t.weekday / 7 + 1)
  else
    let later := weekDays (t.yearDay - daysOfYear t.year : Int) t.weekday
    if 0 ≤ later then (wrappedYear (t.year + 1), later / 7 + 1) else (t.year, days / 7 + 1)

/-- The number of weeks that have started in the year of a day up to and on this day, if weeks
start on a given day of the week. -/
def weekStarts (t : Civil) (start : Nat) : Nat :=
  (t.yearDay + 7 - (t.weekday + 7 - start) % 7) / 7

end PermissionClaims.Time
