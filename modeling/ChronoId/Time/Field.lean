/-
# Fields of fixed width

The numbers in a date or a time have a fixed number of digits. A field is
written with leading zeros, and read only if all its digits are there.

Key definitions: `Field.write`, `Field.read?`, `Field.expect?`.
-/
import ChronoId.Text.Integer

namespace ChronoId
namespace Field

/-- `n` with leading zeros up to `width` digits. -/
def write (width n : Nat) : List Char :=
  let ds := Natural.write n
  List.replicate (width - ds.length) '0' ++ ds

/-- The number that the first `width` characters are the digits of, after the
digits read so far, and the rest. -/
def readAfter? : Nat → Nat → List Char → Option (Nat × List Char)
  | 0, n, cs => some (n, cs)
  | _ + 1, _, [] => none
  | width + 1, n, c :: cs =>
    match Text.asciiDigit? c with
    | some d => readAfter? width (n * 10 + d) cs
    | none => none

/-- The number that the first `width` characters are the digits of, and the
rest. -/
def read? (width : Nat) (cs : List Char) : Option (Nat × List Char) := readAfter? width 0 cs

/-- What follows the character `c`, if `cs` starts with it. -/
def expect? (c : Char) : List Char → Option (List Char)
  | d :: cs => if d = c then some cs else none
  | [] => none

end Field
end ChronoId
