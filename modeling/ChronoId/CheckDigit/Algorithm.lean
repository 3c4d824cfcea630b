/-
# Check digit algorithms

Four algorithms turn a code into a number, written in decimal. Luhn, ISIN and
Verhoeff give one digit; SHA-256 gives its whole digest, so that it reaches
every character of a long alphabet.

Key definitions: `Algorithm`, `Algorithm.ofName?`, `Algorithm.number`,
`Algorithm.compute`, `Algorithm.maxOutputLength`.
-/
import ChronoId.CheckDigit.Sha256
import ChronoId.CheckDigit.Verhoeff

namespace ChronoId

/-- A check digit algorithm. -/
inductive Algorithm where
  | luhn
  | isin
  | verhoeff
  | sha256
deriving DecidableEq

namespace Algorithm

/-- All algorithms. -/
def all : List Algorithm := [.luhn, .isin, .verhoeff, .sha256]

/-- The name of an algorithm in settings. -/
def name : Algorithm → String
  | .luhn => "luhn"
  | .isin => "isin"
  | .verhoeff => "verhoeff"
  | .sha256 => "sha256"

/-- The algorithm of a name. -/
def ofName? (name : String) : Option Algorithm := all.find? (·.name = name)

/-- The algorithm of a name, which should be one. -/
def ofName (name : String) : Except Error Algorithm :=
  match ofName? name with
  | some a => .ok a
  | none => .error (.unknownAlgorithm name)

/-- The number that an algorithm makes of a code. -/
def number (a : Algorithm) (code : List Char) : Except Error Nat :=
  match a with
  | .luhn => Mod10.luhn code
  | .isin => Mod10.isin code
  | .verhoeff => Verhoeff.checkDigit code
  | .sha256 => .ok (Sha256.digestNumber (String.ofList code).toUTF8.data.toList)

/-- The decimal text that an algorithm makes of a code in UTF-8. -/
def compute (a : Algorithm) (source : ByteArray) : Except Error (List Char) :=
  match String.fromUTF8? source with
  | some code => (a.number code.toList).map Natural.write
  | none => .error (.input .notUtf8)

/-- The most characters that `compute` gives. -/
def maxOutputLength : Algorithm → Nat
  | .sha256 => (Natural.write (Nat.pow 2 256 - 1)).length
  | _ => 1

end Algorithm
end ChronoId
