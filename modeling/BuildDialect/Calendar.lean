/-! Days of the calendar and times of the day. -/
namespace BuildDialect

structure Day where
  year : Nat
  month : Nat
  day : Nat
  deriving DecidableEq, Repr

/-- A time of day, and how far its zone is ahead of the common one, in minutes, if it has one. -/
structure TimeOfDay where
  hour : Nat
  minute : Nat
  second : Nat
  microsecond : Nat
  offset : Option Int
  deriving DecidableEq, Repr

inductive TimePart where
  | year | month | day | hour | minute | second
  deriving DecidableEq, Repr

namespace Day

def daysIn (year month : Nat) : Nat :=
  if month = 2 then
    if year % 4 = 0 ∧ (year % 100 ≠ 0 ∨ year % 400 = 0) then 29 else 28
  else if month = 4 ∨ month = 6 ∨ month = 9 ∨ month = 11 then 30
  else 31

/-- The first part of a day that is out of range. -/
def misfit? (day : Day) : Option TimePart :=
  if day.year = 0 then some .year
  else if day.month = 0 ∨ 12 < day.month then some .month
  else if day.day = 0 ∨ daysIn day.year day.month < day.day then some .day
  else none

/-- How many days there are before a day, counted from the first year. -/
def number (day : Day) : Nat :=
  let years := day.year - 1
  365 * years + years / 4 - years / 100 + years / 400 +
    ((List.range' 1 (day.month - 1)).map (daysIn day.year)).foldl Nat.add 0 + (day.day - 1)

end Day

namespace TimeOfDay

def misfit? (time : TimeOfDay) : Option TimePart :=
  if 23 < time.hour then some .hour
  else if 59 < time.minute then some .minute
  else if 59 < time.second then some .second
  else none

/-- The microseconds of a time on a day, in the common zone if there is one. -/
def instant (day : Day) (time : TimeOfDay) : Int :=
  let minutes : Int := (24 * day.number + time.hour) * 60 + time.minute - time.offset.getD 0
  (60 * minutes + time.second) * 1000000 + time.microsecond

/-- Whether two times on their days are the same: with zones, if they are the same instant; without,
if they look the same. A zone makes a time unlike any without. -/
def isSame (day : Day) (time : TimeOfDay) (otherDay : Day) (other : TimeOfDay) : Bool :=
  time.offset.isSome == other.offset.isSome && time.instant day == other.instant otherDay

end TimeOfDay
end BuildDialect
