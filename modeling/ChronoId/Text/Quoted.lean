/-
# Quoted text

How a value that is text, or a string of bytes, appears inside a message: in
single quotes, or in double quotes if it holds a single quote and no double
one. The backslash, the closing quote, line ends and tabs are escaped, and so
is all that is not printable, by its code point in lower-case hexadecimal of
two, four or eight digits.

Key definitions: `Text.quote`, `Text.quoteBytes`.
-/
import ChronoId.Positional
import ChronoId.Text.Printable

namespace ChronoId
namespace Text

/-- The lower-case hexadecimal digit of value `d`. -/
def hexDigit (d : Nat) : Char :=
  if d < 10 then Char.ofNat ('0'.toNat + d) else Char.ofNat ('a'.toNat + (d - 10))

/-- `n` in hexadecimal, with at least `width` digits. -/
def hex (width n : Nat) : List Char :=
  let ds := (Positional.digits 16 n).map hexDigit
  List.replicate (width - ds.length) '0' ++ ds

/-- The quote that surrounds `cs`. -/
def quoteMark (cs : List Char) : Char :=
  if cs.contains '\'' && !cs.contains '"' then '"' else '\''

/-- The escape of `c` that every kind of quoted text shares: the backslash, the
surrounding quote, line feed, carriage return and tab. -/
def commonEscape? (mark c : Char) : Option (List Char) :=
  if c = '\\' || c = mark then some ['\\', c]
  else if c = '\n' then some ['\\', 'n']
  else if c = '\r' then some ['\\', 'r']
  else if c = '\t' then some ['\\', 't']
  else none

/-- One character of quoted text. -/
def quoteChar (mark c : Char) : List Char :=
  match commonEscape? mark c with
  | some e => e
  | none =>
    if isPrintable c then [c]
    else if c.toNat < 0x100 then '\\' :: 'x' :: hex 2 c.toNat
    else if c.toNat < 0x10000 then '\\' :: 'u' :: hex 4 c.toNat
    else '\\' :: 'U' :: hex 8 c.toNat

/-- `s` as it appears inside a message. -/
def quote (s : String) : String :=
  let mark := quoteMark s.toList
  String.ofList (mark :: s.toList.flatMap (quoteChar mark) ++ [mark])

/-- One byte of a quoted string of bytes: printable ASCII stands for itself. -/
def quoteByte (mark : Char) (b : UInt8) : List Char :=
  let c := Char.ofNat b.toNat
  match commonEscape? mark c with
  | some e => e
  | none => if 0x20 ≤ b.toNat && b.toNat < 0x7f then [c] else '\\' :: 'x' :: hex 2 b.toNat

/-- A string of bytes as it appears inside a message. -/
def quoteBytes (bytes : ByteArray) : String :=
  let mark := quoteMark (bytes.data.toList.map fun b => Char.ofNat b.toNat)
  String.ofList ('b' :: mark :: bytes.data.toList.flatMap (quoteByte mark) ++ [mark])

end Text
end ChronoId
