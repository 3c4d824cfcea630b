/-
# Elapsed time

The time between two points is that between their instants, whatever clocks
they were read from. It is counted in whole seconds and nanoseconds, and a
timestamp before the epoch is rejected.

Key definitions: `Value.toUtc`, `Elapsed.micros`, `Elapsed.between`.
-/
import ChronoId.Fault
import ChronoId.Value

namespace ChronoId

/-- The instant of a date-time. -/
def DateTime.toUtc (t : DateTime) : Except Error Instant :=
  match t.toUtc? with
  | some i => .ok i
  | none => .error .calendarOverflow

namespace Value

/-- The date-time that a value should be. -/
def toDateTime : Value → Except Error DateTime
  | .moment t => .ok t
  | v => .error (.input (.notDateTime v.typeName))

/-- The instant of a value that should be a date-time. -/
def toUtc (v : Value) : Except Error Instant := do (← v.toDateTime).toUtc

end Value

namespace Elapsed

/-- The microseconds from `epoch` to `timestamp`. -/
def micros (timestamp epoch : DateTime) : Except Error Nat := do
  let t ← timestamp.toUtc
  let e ← epoch.toUtc
  if t.micros < e.micros then .error (.input (.beforeEpoch timestamp epoch))
  else .ok (t.micros - e.micros)

/-- The whole seconds of a number of microseconds. -/
def seconds (micros : Nat) : Nat := micros / 1000000

/-- The nanoseconds beyond the whole seconds. -/
def nanos (micros : Nat) : Nat := micros % 1000000 * 1000

/-- The seconds and nanoseconds from `epoch` to `timestamp`, which should be
date-times. The first of them that is none is reported. -/
def between (timestamp epoch : Value) : Except Error (Nat × Nat) := do
  let t ← timestamp.toDateTime
  let _ ← t.toUtc
  let e ← epoch.toDateTime
  let m ← micros t e
  return (seconds m, nanos m)

end Elapsed
end ChronoId
