/-
# Check digits modulo ten

The check digit of Luhn, and the one of ISINs, which turns letters into their
values of two digits first. From the right, every second digit of the payload
is doubled, beginning with the last, a doubled digit counts as the sum of its
own digits, and the check digit fills the sum up to a multiple of ten. A sum
of zero is rejected: it says nothing.

Key definitions: `Mod10.weightedSum`, `Mod10.luhn`, `Mod10.isin`.
-/
import ChronoId.Fault

namespace ChronoId
namespace Mod10

/-- What a digit counts: twice its value, less nine if that has two digits, in
the doubled places. -/
def weigh (doubled : Bool) (d : Nat) : Nat :=
  if doubled then (if d * 2 > 9 then d * 2 - 9 else d * 2) else d

/-- The sum of what the digits count, from the right. -/
def weightedSum : Bool → List Nat → Nat
  | _, [] => 0
  | doubled, d :: ds => weigh doubled d + weightedSum (!doubled) ds

/-- The check digit of a payload of digits. -/
def checkDigit (ds : List Nat) : Except Error Nat :=
  let total := weightedSum true ds.reverse
  if total = 0 then .error (.input .zeroSum) else .ok ((10 - total % 10) % 10)

/-- The value of a decimal digit. -/
def decimalValue (c : Char) : Except Error Nat :=
  match Text.asciiDigit? c with
  | some d => .ok d
  | none => .error (.input (.notDigit c))

/-- Luhn's check digit of a decimal code. -/
def luhn (code : List Char) : Except Error Nat := do
  if code.isEmpty then throw (.input .noCode)
  checkDigit (← code.mapM decimalValue)

/-- The lower case of the kelvin sign is the letter `k`. -/
def kelvinSign : Char := '\u212a'

/-- The lower case of this letter is an `i` and a combining dot. -/
def dottedI : Char := '\u0130'

/-- The value of a digit or a letter: the letters follow the digits, whatever
their case. -/
def alphanumericValue (c : Char) : Except Error Nat :=
  if c.isDigit then .ok (c.toNat - '0'.toNat)
  else if c.isLower then .ok (c.toNat - 'a'.toNat + 10)
  else if c.isUpper then .ok (c.toNat - 'A'.toNat + 10)
  else if c = kelvinSign then .ok ('k'.toNat - 'a'.toNat + 10)
  else if c = dottedI then .error .letterExpands
  else .error (.input (.notAlphanumeric c))

/-- The check digit of an ISIN: every value is written in decimal, and the
digits of all of them are the payload. -/
def isin (code : List Char) : Except Error Nat := do
  if code.isEmpty then throw (.input .noCode)
  let values ← code.mapM alphanumericValue
  checkDigit (values.flatMap (Positional.digits 10))

end Mod10
end ChronoId
