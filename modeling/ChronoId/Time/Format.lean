/-
# Dates and times as text

A reading is written as `YYYY-MM-DDTHH:MM:SS`, with six digits of a fraction
only if it is not zero. Behind it stands the offset, if it is known, as
`+HH:MM` with seconds and microseconds only where they are not zero. In JSON
an instant ends in `Z` instead.

Key definitions: `WallTime.write`, `Offset.write`, `DateTime.text`,
`Instant.writeJson`.
-/
import ChronoId.Time.DateTime
import ChronoId.Time.Field

namespace ChronoId

/-- The six digits of a fraction of a second, unless it is zero. -/
def writeFraction (micro : Nat) : List Char :=
  if micro = 0 then [] else '.' :: Field.write 6 micro

namespace WallTime

/-- The date and the time that the clock shows. -/
def write (w : WallTime) : List Char :=
  Field.write 4 w.date.year ++ '-' :: Field.write 2 w.date.month ++ '-' :: Field.write 2 w.date.day
    ++ 'T' :: Field.write 2 w.hour ++ ':' :: Field.write 2 w.minute
    ++ ':' :: Field.write 2 w.second ++ writeFraction w.micro

end WallTime

namespace Offset

/-- The sign, the hours and the minutes, and as much more as is needed. -/
def write (o : Offset) : List Char :=
  let n := o.micros.natAbs
  let seconds :=
    if n % 60000000 = 0 then []
    else ':' :: Field.write 2 (n / 1000000 % 60) ++ writeFraction (n % 1000000)
  (if o.micros < 0 then '-' else '+')
    :: (Field.write 2 (n / 3600000000) ++ ':' :: Field.write 2 (n / 60000000 % 60) ++ seconds)

end Offset

namespace DateTime

/-- A date-time with its own offset. -/
def write (t : DateTime) : List Char :=
  t.wall.write ++ match t.offset with
    | none => []
    | some o => o.write

/-- A date-time with its own offset, as text. -/
def text (t : DateTime) : String := String.ofList t.write

end DateTime

namespace Instant

/-- An instant with the offset of UTC, as text. -/
def text (i : Instant) : String := (DateTime.ofInstant i).text

/-- An instant as it stands in JSON. -/
def writeJson (i : Instant) : List Char := WallTime.write i ++ ['Z']

end Instant
end ChronoId
