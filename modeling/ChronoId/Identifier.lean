/-
# Identifiers

An identifier together with the values that it encodes. One that was decoded
carries the decoded timestamp, which may differ from the one it was made of by
the rounding of the subseconds.

Key definitions: `Identifier`, `Identifier.json`.
-/
import ChronoId.Json.Writer

namespace ChronoId

/-- An identifier and what it stands for. -/
structure Identifier where
  id : String
  timestamp : Instant
  sequence : Nat
deriving DecidableEq

namespace Identifier

/-- An identifier as a JSON value. -/
def toValue (x : Identifier) : Value :=
  .object [("id", .text x.id),
    ("timestamp", .text (String.ofList (Instant.writeJson x.timestamp))),
    ("sequence", .int x.sequence)]

/-- An identifier as a JSON text. -/
def json (x : Identifier) : String := String.ofList (Json.write x.toValue)

end Identifier
end ChronoId
