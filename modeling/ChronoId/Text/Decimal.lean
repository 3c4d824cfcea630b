/-
# Decimal numbers as text

A decimal number has digits in front of a point, digits behind it, and an
exponent of ten; the last two may be missing, and no zero stands in front of
another digit. Its parts are kept as they were written. What it is worth is
the double nearest to it, so a number beyond the range of doubles is worth
nothing at all, and the test for that range never computes a large power.

Key definitions: `Decimal`, `Decimal.read?`, `Decimal.inDoubleRange`,
`Decimal.toDouble`, `Decimal.write`.
-/
import ChronoId.Rounding
import ChronoId.Text.Integer

namespace ChronoId

/-- A decimal number as it is written. -/
structure Decimal where
  negative : Bool
  whole : List Nat
  fraction : List Nat
  exponent : Option Int

namespace Decimal

/-! ### Reading -/

/-- The digits in front, if there is one, and the rest. -/
def someDigits? (cs : List Char) : Option (List Nat × List Char) :=
  match Text.spanDigits cs with
  | ([], _) => none
  | (ds, rest) => some (ds, rest)

/-- The digits of a whole number, which has no zero in front. -/
def wholeDigits? : List Char → Option (List Nat × List Char)
  | '0' :: rest => some ([0], rest)
  | cs => someDigits? cs

/-- The digits of the fraction, if there is a point. -/
def fractionDigits? : List Char → Option (List Nat × List Char)
  | '.' :: cs => someDigits? cs
  | cs => some ([], cs)

/-- The exponent, if there is one. -/
def exponent? : List Char → Option (Option Int × List Char)
  | [] => some (none, [])
  | c :: cs =>
    if c = 'e' ∨ c = 'E' then
      match cs with
      | '-' :: cs => (someDigits? cs).map fun (ds, rest) =>
        (some (-(Positional.value 10 ds : Int)), rest)
      | '+' :: cs => (someDigits? cs).map fun (ds, rest) =>
        (some (Positional.value 10 ds : Int), rest)
      | cs => (someDigits? cs).map fun (ds, rest) => (some (Positional.value 10 ds : Int), rest)
    else some (none, c :: cs)

/-- The number at the start of `cs`, and the rest. -/
def read? (cs : List Char) : Option (Decimal × List Char) := do
  let (negative, body) := match cs with
    | '-' :: rest => (true, rest)
    | rest => (false, rest)
  let (whole, rest) ← wholeDigits? body
  let (fraction, rest) ← fractionDigits? rest
  let (exponent, rest) ← exponent? rest
  some (⟨negative, whole, fraction, exponent⟩, rest)

variable (d : Decimal)

/-! ### Writing -/

/-- The number as it was written, but for the spelling of its exponent. -/
def write : List Char :=
  (if d.negative then ['-'] else []) ++ d.whole.map Text.asciiDigit
    ++ (if d.fraction.isEmpty then [] else '.' :: d.fraction.map Text.asciiDigit)
    ++ match d.exponent with
      | none => []
      | some e => 'e' :: Integer.write e

/-! ### What a number is worth -/

/-- Whether nothing but digits was written, with or without a sign. -/
def isWhole : Bool := d.fraction.isEmpty && d.exponent.isNone

/-- The integer that the digits in front of the point are. -/
def toInt : Int :=
  let n : Int := Positional.value 10 d.whole
  if d.negative then -n else n

/-- All digits from the first that is not zero. -/
def significant : List Nat := (d.whole ++ d.fraction).dropWhile (· = 0)

/-- The power of ten that the digits are multiples of. -/
def scale : Int := d.exponent.getD 0 - d.fraction.length

/-- How many digits stand in front of the point, once the exponent is worked
in. -/
def magnitude : Int := (d.significant.length : Int) + d.scale

/-- The least number that no double is nearest to. -/
def doubleLimit : Nat := Nat.pow 2 1024 - Nat.pow 2 970

/-- Whether the number is in the range of doubles. Only near the end of the
range, where numbers have 309 or 310 digits in front of the point, it is
worked out. -/
def inDoubleRange : Bool :=
  if d.significant.isEmpty ∨ d.magnitude < 309 then true
  else if 310 < d.magnitude then false
  else
    let n := Positional.value 10 d.significant
    if 0 ≤ d.scale then n * Nat.pow 10 d.scale.toNat < doubleLimit
    else n < doubleLimit * Nat.pow 10 (-d.scale).toNat

/-- The least magnitude of a number that is not rounded to zero. -/
def minMagnitude : Int := -330

/-- The double nearest to a number in the range of doubles, and zero for any
other. -/
def toDouble : Rat :=
  if d.significant.isEmpty ∨ d.magnitude < minMagnitude ∨ !d.inDoubleRange then 0
  else
    let n : Rat := (Positional.value 10 d.significant : Nat)
    let q := Rounding.double
      (if 0 ≤ d.scale then n * (Nat.pow 10 d.scale.toNat : Nat)
      else n / (Nat.pow 10 (-d.scale).toNat : Nat))
    if d.negative then -q else q

end Decimal
end ChronoId
