/-
# Verhoeff's check digit

The digits stand for the symmetries of a pentagon, and the check digit makes
the product of all of them the identity once each has been permuted according
to its place. It takes any payload of decimal digits.

Key definitions: `Verhoeff.multiply`, `Verhoeff.permute`, `Verhoeff.inverse`,
`Verhoeff.checkDigit`.
-/
import ChronoId.CheckDigit.Mod10

namespace ChronoId
namespace Verhoeff

/-- The products of the symmetries of a pentagon: zero to four are the
rotations, five to nine the reflections. -/
def products : List (List Nat) :=
  [[0, 1, 2, 3, 4, 5, 6, 7, 8, 9],
   [1, 2, 3, 4, 0, 6, 7, 8, 9, 5],
   [2, 3, 4, 0, 1, 7, 8, 9, 5, 6],
   [3, 4, 0, 1, 2, 8, 9, 5, 6, 7],
   [4, 0, 1, 2, 3, 9, 5, 6, 7, 8],
   [5, 9, 8, 7, 6, 0, 4, 3, 2, 1],
   [6, 5, 9, 8, 7, 1, 0, 4, 3, 2],
   [7, 6, 5, 9, 8, 2, 1, 0, 4, 3],
   [8, 7, 6, 5, 9, 3, 2, 1, 0, 4],
   [9, 8, 7, 6, 5, 4, 3, 2, 1, 0]]

/-- The permutations of the digits in the eight kinds of places, from the
right and beginning with the place of the check digit. -/
def permutations : List (List Nat) :=
  [[0, 1, 2, 3, 4, 5, 6, 7, 8, 9],
   [1, 5, 7, 6, 2, 8, 3, 0, 9, 4],
   [5, 8, 0, 3, 7, 9, 6, 1, 4, 2],
   [8, 9, 1, 6, 0, 4, 3, 5, 2, 7],
   [9, 4, 5, 3, 1, 2, 6, 8, 7, 0],
   [4, 2, 8, 6, 5, 7, 3, 9, 0, 1],
   [2, 7, 9, 3, 8, 0, 6, 4, 1, 5],
   [7, 0, 4, 6, 9, 1, 3, 2, 5, 8]]

/-- The symmetry that undoes each one. -/
def inverses : List Nat := [0, 4, 3, 2, 1, 5, 6, 7, 8, 9]

/-- The symmetry `a`, then `b`. -/
def multiply (a b : Nat) : Nat := (products.getD a []).getD b 0

/-- What the digit `d` becomes in a place. -/
def permute (place d : Nat) : Nat := (permutations.getD (place % 8) []).getD d 0

/-- The symmetry that undoes `a`. -/
def inverse (a : Nat) : Nat := inverses.getD a 0

/-- The product of the digits of `code`, which is read from the right, from
`place` on, with `sum` for the digits before. -/
def accumulate : (sum place : Nat) → (code : List Char) → Except Error Nat
  | sum, _, [] => .ok sum
  | sum, place, c :: rest => do
    let d ← Mod10.decimalValue c
    accumulate (multiply sum (permute place d)) (place + 1) rest

/-- The check digit of a decimal code. -/
def checkDigit (code : List Char) : Except Error Nat := do
  if code.isEmpty then throw (.input .noCode)
  return inverse (← accumulate 0 1 code.reverse)

end Verhoeff
end ChronoId
