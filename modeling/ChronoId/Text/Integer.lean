/-
# Whole numbers as text

Whole numbers are written in decimal with a minus sign where they need one and
no superfluous zero. The reader is more generous than the writer: blanks may
surround the number, a plus sign may precede it, single underscores may stand
between digits, leading zeros are allowed, and in text that is not all ASCII a
digit may come from any script. It refuses a number of more than
`Integer.maxDigits` digits, so that a hostile text cannot cost quadratic time,
and where a number is shown it may have no more of them either.

Key definitions: `Integer.write`, `Integer.read?`.
-/
import ChronoId.Positional
import ChronoId.Text.Blank
import ChronoId.Text.Digit

namespace ChronoId

/-- A natural number in decimal. -/
def Natural.write (n : Nat) : List Char := (Positional.digits 10 n).map Text.asciiDigit

namespace Integer

/-- An integer in decimal. -/
def write : Int → List Char
  | .ofNat n => Natural.write n
  | .negSucc n => '-' :: Natural.write (n + 1)

/-- An integer in decimal, as text. -/
def text (i : Int) : String := String.ofList (write i)

/-- The most digits that the reader takes, leading zeros included, and that are
shown. -/
def maxDigits : Nat := 4300

/-- A character of text that is not all ASCII, in the ASCII that the reader
takes: a blank is a space and a digit of any script is the ASCII one. -/
def transcribe? (c : Char) : Option Char :=
  if c.toNat < 127 then some c
  else if Text.isBlank c then some ' '
  else (Text.digitValue? c).map Text.asciiDigit

/-- The digits that follow a digit, and the rest. An underscore counts only
between two digits. -/
def moreDigits : List Char → List Nat × List Char
  | [] => ([], [])
  | c :: rest =>
    match Text.asciiDigit? c with
    | some d => let (ds, r) := moreDigits rest; (d :: ds, r)
    | none =>
      if c = '_' then
        match rest with
        | [] => ([], [c])
        | d :: rest' =>
          match Text.asciiDigit? d with
          | some d => let (ds, r) := moreDigits rest'; (d :: ds, r)
          | none => ([], c :: d :: rest')
      else ([], c :: rest)

/-- The digits at the start of `cs`, if there is one, and the rest. -/
def digitRun? : List Char → Option (List Nat × List Char)
  | [] => none
  | c :: rest => (Text.asciiDigit? c).map fun d => let (ds, r) := moreDigits rest; (d :: ds, r)

/-- The natural number that all of `cs` is, up to spaces behind it. -/
def readUnsigned? (cs : List Char) : Option Nat :=
  match digitRun? cs with
  | none => none
  | some (ds, rest) =>
    if rest.all Text.isAsciiSpace && ds.length ≤ maxDigits then some (Positional.value 10 ds)
    else none

/-- The integer that an ASCII text holds. -/
def readAscii? (cs : List Char) : Option Int :=
  match cs.dropWhile Text.isAsciiSpace with
  | '-' :: rest => (readUnsigned? rest).map fun n => -(n : Int)
  | '+' :: rest => (readUnsigned? rest).map Int.ofNat
  | rest => (readUnsigned? rest).map Int.ofNat

/-- The integer that `cs` holds, if it holds one. -/
def read? (cs : List Char) : Option Int :=
  if cs.all (·.toNat < 128) then readAscii? cs
  else (cs.mapM transcribe?).bind readAscii?

end Integer
end ChronoId
