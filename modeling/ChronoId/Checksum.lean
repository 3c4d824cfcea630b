/-
# The checksum of an identifier

The check digit is computed over the identifier without one. To verify an
identifier, the last decimal digit is split off its sequence, and the check
digit of what is left has to be that digit.

Key definitions: `Checksum`, `Checksum.compute`, `Checksum.isValid`.
-/
import ChronoId.CheckDigit.Engine
import ChronoId.Encoder
import ChronoId.Layout

namespace ChronoId

/-- How the check digits of identifiers are made. -/
structure Checksum where
  layout : Layout
  encoder : Encoder
  method : Method
  alphabet : Value

namespace Checksum

variable (c : Checksum)

/-- The check character of an identifier without one. -/
def compute (id : Value) : Except Error Char :=
  (CheckDigit.compute id c.method c.alphabet).result

/-- Whether the last decimal digit of an identifier's sequence is right. -/
def isValid (id : Value) : Except Error Bool := do
  let parts ← c.layout.split id
  let number ← c.encoder.decode parts.sequence
  let bare ← c.layout.join ⟨parts.timestamp, ← c.encoder.encode (number / 10)⟩
  let digit ← c.compute (.text bare)
  return digit == Text.asciiDigit (number % 10)

end Checksum
end ChronoId
