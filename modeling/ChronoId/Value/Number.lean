/-
# Numbers among values

An integer is a number, a flag counts as one or zero, and a number with a
fraction counts as the double nearest to it. A comparison with anything else
has no answer.

Key definitions: `Whole`, `Value.whole?`, `Value.atLeast?`, `Value.atMost?`,
`Value.within?`.
-/
import ChronoId.Value

namespace ChronoId

/-- A whole number, or a flag that stands for one. -/
inductive Whole where
  | int (i : Int)
  | flag (b : Bool)
deriving DecidableEq

namespace Whole

/-- The integer of a flag. -/
def ofFlag (b : Bool) : Int := if b then 1 else 0

/-- The integer that a whole number is. -/
def toInt : Whole → Int
  | .int i => i
  | .flag b => ofFlag b

/-- A whole number as a value. -/
def toValue : Whole → Value
  | .int i => .int i
  | .flag b => .bool b

end Whole

namespace Value

/-- The whole number that a value is. -/
def whole? : Value → Option Whole
  | .int i => some (.int i)
  | .bool b => some (.flag b)
  | _ => none

/-- Whether a number is at least `n`. -/
def atLeast? (n : Int) : Value → Option Bool
  | .int i => some (n ≤ i)
  | .bool b => some (n ≤ Whole.ofFlag b)
  | .float d => some ((n : Rat) ≤ d.toDouble)
  | _ => none

/-- Whether a number is at most `n`. -/
def atMost? (n : Int) : Value → Option Bool
  | .int i => some (i ≤ n)
  | .bool b => some (Whole.ofFlag b ≤ n)
  | .float d => some (d.toDouble ≤ (n : Rat))
  | _ => none

/-- Whether a number lies between `low` and `high`. -/
def within? (low high : Int) (v : Value) : Option Bool := do
  let above ← v.atLeast? low
  let below ← v.atMost? high
  return above && below

theorem whole?_eq_some {v : Value} {w : Whole} (h : v.whole? = some w) : v = w.toValue := by
  cases v <;> simp [whole?] at h <;> subst h <;> rfl

end Value
end ChronoId
