/-
# The layout of an identifier

An identifier is a timestamp's text of a fixed width with a sequence's text of
any width behind it. The check digit has no place of its own: it is the last
decimal digit of the sequence.

Key definitions: `Parts`, `Layout`, `Layout.join`, `Layout.joinValues`,
`Layout.split`.
-/
import ChronoId.Fault
import ChronoId.Value.Sequence

namespace ChronoId

/-- The two parts of an identifier. -/
structure Parts where
  timestamp : String
  sequence : String
deriving DecidableEq

/-- Where the timestamp ends. -/
structure Layout where
  width : Nat
  width_pos : 0 < width

namespace Layout

/-- The layout of a value that should be a positive integer. -/
def ofValue? : Value → Except Error Layout
  | .int i =>
    if h : 0 < i.toNat then .ok ⟨i.toNat, h⟩ else .error (.configuration .timestampWidth)
  | _ => .error (.configuration .timestampWidth)

variable (layout : Layout)

/-- The identifier of two parts. -/
def join (parts : Parts) : Except Error String :=
  if parts.timestamp.length ≠ layout.width then
    .error (.showing layout.width (.timestampSize layout.width parts.timestamp.length))
  else if parts.sequence.isEmpty then .error (.input .sequenceMissing)
  else .ok (parts.timestamp ++ parts.sequence)

/-- Two values joined like the parts of an identifier, which they should be:
lists can be joined as well. -/
def joinValues : Value → Value → Except Error Value
  | .text timestamp, .text sequence => (layout.join ⟨timestamp, sequence⟩).map .text
  | timestamp, sequence =>
    match timestamp.size? with
    | none => .error .wrongType
    | some size =>
      if size ≠ layout.width then
        .error (.showing layout.width (.timestampSize layout.width size))
      else if sequence.isVoid then .error (.input .sequenceMissing)
      else
        match timestamp.append? sequence with
        | some joined => .ok joined
        | none => .error .wrongType

/-- The parts of an identifier, neither of which may be empty. -/
def splitText (id : String) : Except Error Parts :=
  let cs := id.toList
  if cs.length ≤ layout.width then
    .error (.showing layout.width (.identifierTooShort layout.width))
  else .ok ⟨String.ofList (cs.take layout.width), String.ofList (cs.drop layout.width)⟩

/-- The parts of a value that should be an identifier. -/
def split : Value → Except Error Parts
  | .text s => layout.splitText s
  | _ => .error (.showing layout.width (.identifierTooShort layout.width))

end Layout
end ChronoId
