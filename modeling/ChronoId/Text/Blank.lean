/-
# Blank characters

The characters that separate words: those with the bidirectional class of a
separator or whitespace, or the category of a space separator. Core's own
class of whitespace holds four of them.

Key definitions: `Text.isBlank`, `Text.isAsciiSpace`.
-/

namespace ChronoId
namespace Text

/-- The blank code points outside the two runs of controls and the run of
typographic spaces. -/
def blankSingles : List Nat := [0x20, 0x85, 0xa0, 0x1680, 0x2028, 0x2029, 0x202f, 0x205f, 0x3000]

/-- Whether `c` is a blank. -/
def isBlank (c : Char) : Bool :=
  let n := c.toNat
  (0x09 ≤ n && n ≤ 0x0d) || (0x1c ≤ n && n ≤ 0x1f) || (0x2000 ≤ n && n ≤ 0x200a)
    || blankSingles.contains n

/-- The blanks that may stand around a whole number in plain ASCII text: tab,
the three line ends, form feed and space. The four separators that are also
ASCII blanks are not among them. -/
def isAsciiSpace (c : Char) : Bool :=
  c = ' ' || (0x09 ≤ c.toNat && c.toNat ≤ 0x0d)

end Text
end ChronoId
