/-
# Rounding of exact rationals

Every rounding that an identifier depends on is a function on exact rationals:
to the nearest integer, with a half going up or to the even neighbour, and to
a number of significant digits in a base. Fifty-three binary digits are the
precision of a double, twenty-eight decimal digits that of decimal division.
Exponents are not bounded, because no value here comes near their ends.

A power of ten whose exponent is no integer is irrational. It is worked out by
square roots, one for each binary digit of the exponent, to far more digits
than a double keeps, and then rounded.

Key definitions: `Rounding.halfUp`, `Rounding.halfEven`, `Rounding.magnitude`,
`Rounding.significant`, `Rounding.sqrt`, `Rounding.powerOfTen`.
-/
import ChronoId.Positional

namespace ChronoId
namespace Rounding

/-- The integer nearest to `q`; a half goes up. -/
def halfUp (q : Rat) : Int := (q + 1 / 2).floor

/-- The integer nearest to `q`; a half goes to the even neighbour. -/
def halfEven (q : Rat) : Int :=
  let low := q.floor
  let rest := q - low
  if rest < 1 / 2 ∨ (rest = 1 / 2 ∧ low % 2 = 0) then low else low + 1

/-- The exponent of the leading digit of a positive `q` in `base`: the largest
`e` with `base ^ e ≤ q`. The lengths of numerator and denominator leave two
candidates, and one comparison decides. -/
def magnitude (base : Nat) (q : Rat) : Int :=
  let e : Int := ((Positional.digits base q.num.natAbs).length : Int)
    - ((Positional.digits base q.den).length : Int)
  if q < (base : Rat) ^ e then e - 1 else e

/-- `q`, which is not negative, rounded to `places` significant digits of
`base`, with a half going to the even neighbour. -/
def significant (base places : Nat) (q : Rat) : Rat :=
  if q = 0 then 0
  else
    let unit := (base : Rat) ^ (magnitude base q - ((places : Int) - 1))
    (halfEven (q / unit) : Rat) * unit

/-- The double nearest to `q`. -/
def double (q : Rat) : Rat := significant 2 53 q

/-- The decimal of twenty-eight significant digits nearest to `q`. -/
def decimal (q : Rat) : Rat := significant 10 28 q

/-! ### Powers of ten -/

/-- The largest number whose square is at most `n`: that of a quarter of `n`
is half of it, but for the last binary digit. -/
def sqrt (n : Nat) : Nat :=
  if n = 0 then 0
  else
    let s := 2 * sqrt (n / 4)
    if (s + 1) * (s + 1) ≤ n then s + 1 else s
termination_by n

/-- Ten to the power of `k / 2 ^ places`, as a multiple of `1 / unit` and
rounded down. A binary place less is the square of it. -/
def rootOfTen (unit : Nat) : (places k : Nat) → Nat
  | 0, k => unit * Nat.pow 10 k
  | places + 1, k =>
    let half := Nat.pow 2 places
    sqrt (unit * Nat.pow 10 (k / half) * rootOfTen unit places (k % half))

/-- The binary places of an exponent that count; a double that is at least one
has no more. -/
def exponentPlaces : Nat := 52

/-- The unit in which powers of ten are worked out. -/
def powerUnit : Nat := Nat.pow 2 160

/-- The double nearest to ten to the power of `q`, which is not negative. -/
def powerOfTen (q : Rat) : Rat :=
  let k := (q * (Nat.pow 2 exponentPlaces : Nat)).floor.toNat
  double ((rootOfTen powerUnit exponentPlaces k : Nat) / (powerUnit : Nat))

end Rounding
end ChronoId
