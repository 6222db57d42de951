/-!
# Dates and times of day

Dates of the proleptic Gregorian calendar, times of day down to the
nanosecond, and timestamps made of one of each. Each type holds exactly the
dates and times that exist: a value is made through `Date.of?` and
`TimeOfDay.of?`, which refuse every other combination. A leap second is second
59 with a thousand million nanoseconds or more.
-/

namespace UnitOfWork

/-! ## Dates -/

/-- Whether a year of the proleptic Gregorian calendar has a 29 February. -/
def isLeapYear (year : Int) : Bool :=
  year % 4 == 0 && (year % 100 != 0 || year % 400 == 0)

/-- How many days a month has. -/
def daysInMonth (year : Int) (month : Nat) : Nat :=
  if month = 2 then if isLeapYear year then 29 else 28
  else if month = 4 ∨ month = 6 ∨ month = 9 ∨ month = 11 then 30
  else 31

/-- The least year that dates reach. -/
def Date.minYear : Int := -262143

/-- The greatest year that dates reach. -/
def Date.maxYear : Int := 262142

/-- A day of the calendar, in a year within reach. -/
structure Date where
  year : Int
  month : Nat
  day : Nat
  year_mem : Date.minYear ≤ year ∧ year ≤ Date.maxYear
  month_mem : 1 ≤ month ∧ month ≤ 12
  day_mem : 1 ≤ day ∧ day ≤ daysInMonth year month
deriving DecidableEq

namespace Date

/-- The date of the given year, month and day, if there is one. -/
def of? (year : Int) (month day : Nat) : Option Date :=
  if hYear : minYear ≤ year ∧ year ≤ maxYear then
    if hMonth : 1 ≤ month ∧ month ≤ 12 then
      if hDay : 1 ≤ day ∧ day ≤ daysInMonth year month then
        some ⟨year, month, day, hYear, hMonth, hDay⟩
      else none
    else none
  else none

/-- Every date is the date of its own parts. -/
theorem of?_parts (d : Date) : of? d.year d.month d.day = some d := by
  simp [of?, d.year_mem, d.month_mem, d.day_mem]

/-- The first of January 1970. -/
def epoch : Date := ⟨1970, 1, 1, by decide, by decide, by decide⟩

end Date

/-! ## Times of day -/

/-- A time of day. The nanoseconds may pass a whole second only in second 59,
where the excess counts the leap second that follows it. -/
structure TimeOfDay where
  hour : Nat
  minute : Nat
  second : Nat
  nano : Nat
  hour_lt : hour < 24
  minute_lt : minute < 60
  second_lt : second < 60
  nano_lt : nano < 1000000000 ∨ (second = 59 ∧ nano < 2000000000)
deriving DecidableEq

namespace TimeOfDay

/-- The time of day of the given parts, if there is one. -/
def of? (hour minute second nano : Nat) : Option TimeOfDay :=
  if hHour : hour < 24 then
    if hMinute : minute < 60 then
      if hSecond : second < 60 then
        if hNano : nano < 1000000000 ∨ (second = 59 ∧ nano < 2000000000) then
          some ⟨hour, minute, second, nano, hHour, hMinute, hSecond, hNano⟩
        else none
      else none
    else none
  else none

/-- Every time of day is the time of its own parts. -/
theorem of?_parts (t : TimeOfDay) :
    of? t.hour t.minute t.second t.nano = some t := by
  simp [of?, t.hour_lt, t.minute_lt, t.second_lt, t.nano_lt]

/-- The first moment of the day. -/
def midnight : TimeOfDay :=
  ⟨0, 0, 0, 0, by decide, by decide, by decide, by decide⟩

end TimeOfDay

/-! ## Timestamps -/

/-- A date with a time of day. -/
structure Timestamp where
  date : Date
  time : TimeOfDay
deriving DecidableEq

end UnitOfWork
