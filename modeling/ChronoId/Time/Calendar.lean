/-
# The calendar

Dates of the proleptic Gregorian calendar in the years 1 to 9999, numbered by
the days since the first of January of year one, which was a Monday. The year
of a day is estimated from the mean length of a year, which is wrong by one at
most, and then corrected.

Key definitions: `Date`, `Date.IsValid`, `Date.dayNumber`, `Date.ofDayNumber`,
`Date.ofIsoWeek?`.
-/

namespace ChronoId

/-- A year, a month and a day of the month, each counted from one. -/
structure Date where
  year : Nat
  month : Nat
  day : Nat
deriving DecidableEq

namespace Date

/-- The last year of the calendar. -/
def maxYear : Nat := 9999

/-- Every fourth year has a day more, but of the full centuries only every
fourth. -/
def isLeap (year : Nat) : Bool :=
  year % 4 = 0 && (year % 100 ≠ 0 || year % 400 = 0)

/-- The number of days before the first of January of `year`. -/
def daysBeforeYear (year : Nat) : Nat :=
  (year - 1) * 365 + (year - 1) / 4 - (year - 1) / 100 + (year - 1) / 400

/-- The lengths of the months of a year. -/
def monthLengths (leap : Bool) : List Nat :=
  [31, if leap then 29 else 28, 31, 30, 31, 30, 31, 31, 30, 31, 30, 31]

/-- The number of days of a month, zero if there is no such month. -/
def daysInMonth (year month : Nat) : Nat :=
  (monthLengths (isLeap year)).getD (month - 1) 0

/-- Whether the calendar has this date. -/
def IsValid (d : Date) : Prop :=
  1 ≤ d.year ∧ d.year ≤ maxYear ∧ 1 ≤ d.month ∧ 1 ≤ d.day ∧ d.day ≤ daysInMonth d.year d.month

instance (d : Date) : Decidable d.IsValid :=
  inferInstanceAs (Decidable (_ ∧ _ ∧ _ ∧ _ ∧ _))

/-- The number of days in the months before `month`. -/
def daysBeforeMonth (leap : Bool) (month : Nat) : Nat :=
  ((monthLengths leap).take (month - 1)).foldl (· + ·) 0

/-- The days from the start of the calendar to `d`. -/
def dayNumber (d : Date) : Nat :=
  daysBeforeYear d.year + daysBeforeMonth (isLeap d.year) d.month + (d.day - 1)

/-- The year that holds day `n`. -/
def yearOfDay (n : Nat) : Nat :=
  let year := n * 400 / 146097 + 1
  if n < daysBeforeYear year then year - 1
  else if daysBeforeYear (year + 1) ≤ n then year + 1
  else year

/-- The months of the given lengths that lie wholly before day `n` of them, and
what is left of `n`. -/
def splitMonths : List Nat → Nat → Nat × Nat
  | [], n => (0, n)
  | len :: rest, n =>
    if n < len then (0, n)
    else let (months, left) := splitMonths rest (n - len); (months + 1, left)

/-- The date of day `n`. -/
def ofDayNumber (n : Nat) : Date :=
  let year := yearOfDay n
  let (months, left) := splitMonths (monthLengths (isLeap year)) (n - daysBeforeYear year)
  ⟨year, months + 1, left + 1⟩

/-- The day of the week of day `n`, from zero for a Monday. -/
def weekday (n : Nat) : Nat := n % 7

/-- The Monday of the first ISO week of `year`, the week that holds its first
Thursday. -/
def firstMonday (year : Nat) : Nat :=
  let newYear := daysBeforeYear year
  let monday := newYear - weekday newYear
  if weekday newYear > 3 then monday + 7 else monday

/-- The number of ISO weeks of `year`: one more than fifty-two if it starts on
a Thursday, or on a Wednesday and is a leap year. -/
def weeksInYear (year : Nat) : Nat :=
  let first := weekday (daysBeforeYear year)
  if first = 3 ∨ (first = 2 ∧ isLeap year) then 53 else 52

/-- The date of a day, one to seven, of an ISO week. -/
def ofIsoWeek? (year week day : Nat) : Option Date :=
  if 1 ≤ year ∧ year ≤ maxYear ∧ 1 ≤ week ∧ week ≤ weeksInYear year ∧ 1 ≤ day ∧ day ≤ 7 then
    let d := ofDayNumber (firstMonday year + (week - 1) * 7 + (day - 1))
    if d.year ≤ maxYear then some d else none
  else none

end Date
end ChronoId
