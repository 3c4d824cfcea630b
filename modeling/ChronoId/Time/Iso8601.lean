/-
# Date-times in ISO 8601

The form that the command line takes. The date is `YYYY-MM-DD`, `YYYYMMDD`,
`YYYY-Www`, `YYYYWww`, `YYYY-Www-D` or `YYYYWwwD`. A time may follow after any
one character: hours, then minutes and seconds if they are wanted, with colons
or without, and a fraction after a point or a comma, of which six digits
count. Behind it may stand `Z` or a signed offset, which has the form of a
time and is less than a day.

The reader takes a little more than the form. In front of an offset or a `Z`
one stray ASCII character may follow the time, and any text may follow six
digits of a fraction. A colon is as good as a point in front of the fraction,
and without colons the fraction needs no mark at all. A fraction may follow
the hours or the minutes. A NUL behind the time ends the text, and an offset
of zero seconds is UTC, whatever its fraction.

Key definitions: `Iso8601.read?`, `Iso8601.readDate?`, `Iso8601.readClock?`.
-/
import ChronoId.Time.DateTime
import ChronoId.Time.Field

namespace ChronoId
namespace Iso8601

/-! ### The date -/

/-- The number of characters of the date at the start of `cs`. A week without
hyphens is followed by a day if the digits up to the next other character are
then even in number, since hours, minutes and seconds come in pairs. -/
def dateLength? (cs : List Char) : Option Nat :=
  let size := cs.length
  if size < 7 then none
  else if size = 7 then some 7
  else if cs[4]? = some '-' then
    if cs[5]? ≠ some 'W' then some 10
    else if cs[8]? ≠ some '-' then some 8
    else if size = 9 then none
    else if (cs[10]?.map Char.isDigit).getD false then some 8
    else some 10
  else if cs[4]? = some 'W' then
    let stop := 7 + ((cs.drop 7).takeWhile Char.isDigit).length
    if stop < 9 then some stop else if stop % 2 = 0 then some 7 else some 8
  else some 8

/-- The hyphen between two parts of a date, if the date has hyphens. -/
def skipHyphen? (hyphens : Bool) (cs : List Char) : Option (List Char) :=
  if hyphens then Field.expect? '-' cs else some cs

/-- The week, and the day of it, that end a date. -/
def readWeek? (year : Nat) (hyphens : Bool) (cs : List Char) : Option Date := do
  let (week, cs) ← Field.read? 2 cs
  if cs.isEmpty then Date.ofIsoWeek? year week 1
  else
    let (day, cs) ← (skipHyphen? hyphens cs).bind (Field.read? 1)
    if cs.isEmpty then Date.ofIsoWeek? year week day else none

/-- The month and the day that end a date. -/
def readMonth? (year : Nat) (hyphens : Bool) (cs : List Char) : Option Date := do
  let (month, cs) ← Field.read? 2 cs
  let (day, cs) ← (skipHyphen? hyphens cs).bind (Field.read? 2)
  if cs.isEmpty then some ⟨year, month, day⟩ else none

/-- The date that all of `cs` is. Whether the calendar has it is seen later. -/
def readDate? (cs : List Char) : Option Date := do
  let (year, cs) ← Field.read? 4 cs
  let (hyphens, cs) := match cs with
    | '-' :: rest => (true, rest)
    | rest => (false, rest)
  match cs with
  | 'W' :: rest => readWeek? year hyphens rest
  | rest => readMonth? year hyphens rest

/-! ### The time -/

/-- The numbers of a time or an offset. -/
structure Clock where
  hour : Nat
  minute : Nat
  second : Nat
  micro : Nat

/-- A time, and whether nothing but a NUL follows it. -/
structure ClockReading where
  clock : Clock
  complete : Bool

/-- Whether a text ends here. -/
def endsHere : List Char → Bool
  | [] => true
  | c :: _ => c.toNat = 0

/-- The fraction that `cs`, which is not empty, starts with, in microseconds,
and whether it is all of `cs`. -/
def readFraction? (cs : List Char) : Option (Nat × Bool) := do
  let width := min cs.length 6
  let (n, rest) ← Field.read? width cs
  some (n * Nat.pow 10 (6 - width), endsHere (rest.dropWhile Char.isDigit))

/-- The hours, minutes and seconds that `cs` starts with, as far as they go,
and the fraction behind them. `left` more numbers may follow, `colons` says
whether they have colons between them (`none` as long as that is open), and
`build` takes the numbers still to come and the microseconds. -/
def readNumbers? : (left : Nat) → (colons : Option Bool) → (build : List Nat → Nat → Clock) →
    List Char → Option ClockReading
  | 0, _, build, cs => do
    let (micro, complete) ← readFraction? cs
    some ⟨build [] micro, complete⟩
  | left + 1, colons, build, cs => do
    let (n, cs) ← Field.read? 2 cs
    let build := fun later micro => build (n :: later) micro
    match cs with
    | [] => some ⟨build [] 0, true⟩
    | [c] => if c.toNat < 128 then some ⟨build [] 0, c.toNat = 0⟩ else none
    | c :: rest =>
      let colons := colons.getD (c = ':')
      if colons ∧ c = ':' then readNumbers? left (some colons) build rest
      else if c = '.' ∨ c = ',' then readNumbers? 0 (some colons) build rest
      else if colons then none
      else readNumbers? left (some colons) build (c :: rest)

/-- The time that `cs` starts with. -/
def readClock? (cs : List Char) : Option ClockReading :=
  readNumbers? 3 none
    (fun numbers micro => ⟨numbers.getD 0 0, numbers.getD 1 0, numbers.getD 2 0, micro⟩) cs

/-- The length of an offset; without whole seconds there is none. -/
def Clock.offsetMicros (c : Clock) : Nat :=
  let seconds := c.hour * 3600 + c.minute * 60 + c.second
  if seconds = 0 then 0 else seconds * 1000000 + c.micro

/-- The offset behind a time: `none` if the text is no offset. -/
def readZone? : List Char → Option Offset
  | 'Z' :: cs => if endsHere cs then some Offset.utc else none
  | sign :: cs => do
    let reading ← readClock? cs
    let micros : Int := reading.clock.offsetMicros
    if reading.complete then Offset.ofMicros? (if sign = '-' then -micros else micros) else none
  | [] => none

/-- Whether `c` ends a time because an offset starts with it. -/
def startsZone (c : Char) : Bool := c = '+' || c = '-' || c = 'Z'

/-- A time, and the offset behind it if there is one. -/
def readTime? (cs : List Char) : Option (Clock × Option Offset) := do
  let zone := cs.dropWhile (!startsZone ·)
  let reading ← readClock? (cs.takeWhile (!startsZone ·))
  if zone.isEmpty then
    if reading.complete then some (reading.clock, none) else none
  else
    let offset ← readZone? zone
    some (reading.clock, some offset)

/-- The date-time that all of `cs` is, if it is one. -/
def read? (cs : List Char) : Option DateTime := do
  let size ← dateLength? cs
  let date ← readDate? (cs.take size)
  let (clock, offset) ← match cs.drop size with
    | [] => some (⟨0, 0, 0, 0⟩, none)
    | _ :: time => readTime? time
  let wall ← WallTime.ofFields? date clock.hour clock.minute clock.second clock.micro
  some ⟨wall, offset⟩

end Iso8601
end ChronoId
