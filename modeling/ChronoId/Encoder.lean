/-
# Encoders of numbers

What a codec needs of the thing that writes its numbers: a text for each
number up to some bound, the number back from a text, zeros to pad with, and
whether padded texts sort like the numbers. A numeral system is one; a caller
may bring another.

Key definitions: `Encoder`, `Numeral.encoder`, `Encoder.missing`,
`Encoder.decodeValue`.
-/
import ChronoId.Numeral

namespace ChronoId

/-- A way to write numbers as text. -/
structure Encoder where
  encode : Nat → Except Error String
  decode : String → Except Error Nat
  pad : String → Int → Except Error String
  retainsSortOrder : Bool

/-- A numeral system as an encoder. -/
def Numeral.encoder [Host] (n : Numeral) : Encoder where
  encode := n.encode
  decode := n.decode
  pad := n.pad
  retainsSortOrder := n.retainsSortOrder

namespace Encoder

/-- The encoder of a caller who has none: it fails as soon as it is asked. -/
def missing : Encoder where
  encode _ := .error .encoderMissing
  decode _ := .error .encoderMissing
  pad _ _ := .error .encoderMissing
  retainsSortOrder := false

/-- The number of a value that should be text. -/
def decodeValue (e : Encoder) : Value → Except Error Nat
  | .text s => e.decode s
  | _ => .error (.input .encodedMissing)

end Encoder
end ChronoId
