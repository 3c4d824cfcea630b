/-
# Date-times in RFC 3339

The form that settings hold: `YYYY-MM-DD`, a `T`, `t` or space, `HH:MM:SS`, a
fraction of one or more digits if there is a point, and then nothing, `Z`, `z`
or an offset whose colon may be missing. A seventh digit of the fraction that
is five or more rounds the microseconds up, and the carry may reach the year;
the digits behind it do not count. A NUL where the offset may stand ends the
text, whatever follows it.

Key definitions: `Rfc3339.read?`.
-/
import ChronoId.Time.DateTime
import ChronoId.Time.Field

namespace ChronoId
namespace Rfc3339

/-- The microseconds that the digits of a fraction stand for, rounded by the
seventh of them: a whole second is possible. -/
def fractionMicros (ds : List Nat) : Nat :=
  let six := ds.take 6
  Positional.value 10 (six ++ List.replicate (6 - six.length) 0)
    + (if 5 ≤ ds.getD 6 0 then 1 else 0)

/-- The microseconds of the fraction, zero if there is none, and the rest. -/
def readFraction? : List Char → Option (Nat × List Char)
  | '.' :: cs =>
    match Text.spanDigits cs with
    | ([], _) => none
    | (ds, rest) => some (fractionMicros ds, rest)
  | cs => some (0, cs)

/-- The hours and minutes of an offset, in microseconds; nothing may follow. -/
def readOffset? (cs : List Char) : Option Int := do
  let (hours, cs) ← Field.read? 2 cs
  let (minutes, cs) ← Field.read? 2 ((Field.expect? ':' cs).getD cs)
  if cs.isEmpty ∧ hours < 24 ∧ minutes < 60 then
    some (((hours * 60 + minutes) * 60000000 : Nat) : Int)
  else none

/-- What stands behind the time: the offset, if it is given. -/
def readZone? : List Char → Option (Option Offset)
  | [] => some none
  | ['Z'] => some (some Offset.utc)
  | ['z'] => some (some Offset.utc)
  | '+' :: cs => (readOffset? cs).bind fun micros => (Offset.ofMicros? micros).map some
  | '-' :: cs => (readOffset? cs).bind fun micros => (Offset.ofMicros? (-micros)).map some
  | c :: _ => if c.toNat = 0 then some none else none

/-- Whether `c` may stand between the date and the time. -/
def isSeparator (c : Char) : Bool := c = 'T' || c = 't' || c = ' '

/-- What follows the separator. -/
def afterSeparator? : List Char → Option (List Char)
  | c :: cs => if isSeparator c then some cs else none
  | [] => none

/-- The date-time that all of `cs` is, if it is one. -/
def read? (cs : List Char) : Option DateTime := do
  let (year, cs) ← Field.read? 4 cs
  let (month, cs) ← (Field.expect? '-' cs).bind (Field.read? 2)
  let (day, cs) ← (Field.expect? '-' cs).bind (Field.read? 2)
  let (hour, cs) ← (afterSeparator? cs).bind (Field.read? 2)
  let (minute, cs) ← (Field.expect? ':' cs).bind (Field.read? 2)
  let (second, cs) ← (Field.expect? ':' cs).bind (Field.read? 2)
  let (micros, cs) ← readFraction? cs
  let offset ← readZone? cs
  let wall ← WallTime.ofFields? ⟨year, month, day⟩ hour minute second 0
  let wall ← wall.shift? micros
  some ⟨wall, offset⟩

end Rfc3339
end ChronoId
