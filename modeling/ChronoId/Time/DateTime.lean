/-
# Wall clocks, offsets and instants

A wall clock shows a number of microseconds since the start of year one, and
never leaves the years 1 to 9999. A date-time is what a wall clock shows,
together with the offset of that clock from UTC if it is known; without an
offset the clock is taken to show UTC. An instant is the reading of the UTC
clock, so the order of instants is the order of numbers, and two date-times
denote the same instant if they have the same reading in UTC.

Key definitions: `WallTime`, `Offset`, `DateTime`, `Instant`,
`WallTime.shift?`, `DateTime.toUtc?`, `WallTime.ofFields?`.
-/
import ChronoId.Time.Calendar

namespace ChronoId

/-- The microseconds of a day. -/
def microsPerDay : Nat := 86400000000

/-- The microseconds of the whole calendar. -/
def WallTime.limit : Nat := 3652059 * microsPerDay

/-- What a wall clock shows, in microseconds since the start of year one. -/
structure WallTime where
  micros : Nat
  lt_limit : micros < WallTime.limit
deriving DecidableEq

/-- A point in time, as the UTC clock shows it. -/
abbrev Instant := WallTime

/-- How far a clock is ahead of UTC, in microseconds: less than a day either
way. -/
structure Offset where
  micros : Int
  bound : micros.natAbs < microsPerDay
deriving DecidableEq

/-- A wall clock's reading, with the clock's offset if it is known. -/
structure DateTime where
  wall : WallTime
  offset : Option Offset
deriving DecidableEq

namespace Offset

/-- The offset of `micros`, if that is less than a day. -/
def ofMicros? (micros : Int) : Option Offset :=
  if h : micros.natAbs < microsPerDay then some ⟨micros, h⟩ else none

/-- The offset of UTC itself. -/
def utc : Offset := ⟨0, by decide⟩

end Offset

namespace WallTime

/-- The reading of `micros`, if the calendar has it. -/
def ofMicros? (micros : Int) : Option WallTime :=
  if h : 0 ≤ micros ∧ micros.toNat < limit then some ⟨micros.toNat, h.2⟩ else none

/-- The reading `micros` later, if the calendar has it. -/
def shift? (w : WallTime) (micros : Int) : Option WallTime :=
  ofMicros? (w.micros + micros)

/-- The reading at a time of day, if there are such a date and time. -/
def ofFields? (date : Date) (hour minute second micro : Nat) : Option WallTime :=
  if date.IsValid ∧ hour < 24 ∧ minute < 60 ∧ second < 60 ∧ micro < 1000000 then
    ofMicros? (date.dayNumber * microsPerDay
      + (((hour * 60 + minute) * 60 + second) * 1000000 + micro) : Nat)
  else none

/-- The date that the clock shows. -/
def date (w : WallTime) : Date := Date.ofDayNumber (w.micros / microsPerDay)

/-- The microseconds since midnight. -/
def microOfDay (w : WallTime) : Nat := w.micros % microsPerDay

/-- The hours since midnight. -/
def hour (w : WallTime) : Nat := w.microOfDay / 3600000000

/-- The minutes of the hour. -/
def minute (w : WallTime) : Nat := w.microOfDay / 60000000 % 60

/-- The seconds of the minute. -/
def second (w : WallTime) : Nat := w.microOfDay / 1000000 % 60

/-- The microseconds of the second. -/
def micro (w : WallTime) : Nat := w.microOfDay % 1000000

end WallTime

namespace DateTime

/-- The instant that `t` denotes, if UTC has a reading for it. -/
def toUtc? (t : DateTime) : Option Instant :=
  match t.offset with
  | none => some t.wall
  | some o => t.wall.shift? (-o.micros)

/-- An instant, as a reading of the UTC clock. -/
def ofInstant (i : Instant) : DateTime := ⟨i, some Offset.utc⟩

end DateTime
end ChronoId
