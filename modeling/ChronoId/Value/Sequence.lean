/-
# Values made of parts

A text, a list and an object have parts: characters, items and keys. They can
be counted, and texts and lists can be joined to others of their kind. A value
is void if it is an empty one of these, a zero, a false flag or nothing at
all.

Key definitions: `Value.size?`, `Value.isVoid`, `Value.append?`,
`Value.parts?`.
-/
import ChronoId.Value

namespace ChronoId
namespace Value

/-- The number of parts. -/
def size? : Value → Option Nat
  | .text s => some s.toList.length
  | .array items => some items.length
  | .object members => some members.length
  | _ => none

/-- Whether there is nothing to a value. -/
def isVoid : Value → Bool
  | .null => true
  | .bool b => !b
  | .int i => i = 0
  | .float d => d.significant.isEmpty
  | .text s => s.toList.isEmpty
  | .array items => items.isEmpty
  | .object members => members.isEmpty
  | .moment _ => false

/-- Two texts or two lists as one. -/
def append? : Value → Value → Option Value
  | .text s, .text t => some (.text (s ++ t))
  | .array vs, .array ws => some (.array (vs ++ ws))
  | _, _ => none

/-- The parts of a list or an object. -/
def parts? : Value → Option (List Value)
  | .array items => some items
  | .object members => some (members.map fun m => .text m.1)
  | _ => none

end Value
end ChronoId
