/- Dates of the Gregorian calendar, extended to all years, and times of day. Days are counted
   from 1 January 1970. -/
namespace BraceTemplate
namespace Calendar

structure Date where
  year : Int
  month : Nat
  day : Nat
  deriving DecidableEq, Repr

/-- A moment without a zone. `nanos` reaches past a whole second in a leap second. -/
structure Moment where
  day : Int
  second : Nat
  nanos : Nat
  deriving DecidableEq, Repr

def isLeap (year : Int) : Bool :=
  year % 4 == 0 && (year % 100 != 0 || year % 400 == 0)

def daysInMonth (year : Int) (month : Nat) : Nat :=
  if month = 2 then (if isLeap year then 29 else 28)
  else if month = 4 || month = 6 || month = 9 || month = 11 then 30
  else 31

/-- The years that dates may have. -/
def inRange (year : Int) : Bool := -262143 ≤ year && year ≤ 262142

def date? (year : Int) (month day : Nat) : Option Date :=
  if inRange year && 1 ≤ month && month ≤ 12 && 1 ≤ day && day ≤ daysInMonth year month then
    some ⟨year, month, day⟩
  else none

namespace Date

/-- Days before a month in its year. -/
def daysBefore (year : Int) (month : Nat) : Nat :=
  (List.range (month - 1)).foldl (fun days m => days + daysInMonth year (m + 1)) 0

/-- The number of the day in its year, from one. -/
def ordinal (d : Date) : Nat := daysBefore d.year d.month + d.day

/-- Days from 1 January of the year 1 to 1 January of a year. -/
def daysBeforeYear (year : Int) : Int :=
  let y := year - 1
  365 * y + y / 4 - y / 100 + y / 400

/-- The days from 1 January 1970 to a date. -/
def number (d : Date) : Int := daysBeforeYear d.year - 719162 + (d.ordinal : Int) - 1

/-- The month that holds a day of the year, and the day in it. -/
def splitOrdinal (year : Int) : Nat → Nat → Nat → Nat × Nat
  | 0, month, day => (month, day)
  | fuel + 1, month, day =>
    if day ≤ daysInMonth year month then (month, day)
    else splitOrdinal year fuel (month + 1) (day - daysInMonth year month)

/-- The date of a day number: the year is guessed from the mean length of a year and moved
    by at most one. -/
def ofNumber (n : Int) : Date :=
  let days := n + 719162
  let guess := days * 400 / 146097 + 1
  let year :=
    if days < daysBeforeYear guess then guess - 1
    else if daysBeforeYear (guess + 1) ≤ days then guess + 1
    else guess
  let (month, day) := splitOrdinal year 11 1 ((days - daysBeforeYear year).toNat + 1)
  ⟨year, month, day⟩

/-- The day of the week, Monday being zero. -/
def weekday (d : Date) : Nat := ((d.number + 3) % 7).toNat

/-- The number of the week whose weeks start on a day, the days before the first such day
    being week zero. -/
def weekFrom (d : Date) (start : Nat) : Nat :=
  (d.ordinal + 6 - (d.weekday + 7 - start) % 7) / 7

/-- The year and number of the week by the international rule: a week belongs to the year
    that holds its Thursday. -/
def isoWeek (d : Date) : Int × Nat :=
  let thursday := ofNumber (d.number - (d.weekday : Int) + 3)
  (thursday.year, (thursday.ordinal - 1) / 7 + 1)

end Date

namespace Moment

/-- The moment that lies so many seconds behind the start of 1970. -/
def ofTimestamp? (seconds : Int) : Option Moment :=
  let day := seconds / 86400
  if inRange (Date.ofNumber day).year then some ⟨day, (seconds % 86400).toNat, 0⟩ else none

def timestamp (m : Moment) : Int := m.day * 86400 + m.second

def date (m : Moment) : Date := Date.ofNumber m.day

def hour (m : Moment) : Nat := m.second / 3600

def minute (m : Moment) : Nat := m.second / 60 % 60

/-- Seconds of the minute; a leap second is the sixtieth. -/
def secondOfMinute (m : Moment) : Nat := m.second % 60 + m.nanos / 1000000000

def fraction (m : Moment) : Nat := m.nanos % 1000000000

def hour12 (m : Moment) : Nat := if m.hour % 12 = 0 then 12 else m.hour % 12

def isAfternoon (m : Moment) : Bool := 12 ≤ m.hour

end Moment
end Calendar
end BraceTemplate
