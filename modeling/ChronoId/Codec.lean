/-
# The codec of identifiers

An identifier is a timestamp of fixed width and a sequence whose last decimal
digit is a check digit over the identifier without it. Creating one ends with
a check that it decodes to the sequence it was made from. The decoded
timestamp may differ, and then a line says so, at the level of an error if the
drift exceeds the limit.

Decoding accepts an identifier only if its check digit is right, its timestamp
lies in the calendar, and its sequence is written without a superfluous zero
and lies in the range that can be encoded. Everything else is no identifier,
and a line says why.

Key definitions: `Codec`, `DriftLimit`, `Codec.build`, `Codec.create`,
`Codec.decode`, `Codec.isValid`.
-/
import ChronoId.Checksum
import ChronoId.Identifier
import ChronoId.Settings.Source
import ChronoId.Timestamp

namespace ChronoId

/-- The settings, and the timestamp codec of their width, bits and digits. Its
encoder keeps the order of numbers, and writes the sequences as well. -/
structure Codec where
  settings : Settings
  timestamps : TimestampCodec
  width_eq : settings.timestampWidth = .int timestamps.width
  bits_eq : settings.subsecondBits = .int timestamps.subsecondBits
  digits_eq : settings.roundingDigits = timestamps.roundingDigits.toValue
  ordered : timestamps.encoder.retainsSortOrder = true

/-- The encoder of an alphabet. Crockford's is ready, and any other leaves a
line when it has been made. -/
def Encoder.ofAlphabet [Host] : Value → Logged Encoder
  | .text alphabet =>
    if alphabet = Numeral.crockford.alphabet then return Numeral.crockford.encoder
    else do return (← Numeral.ofAlphabet (.text alphabet) true).encoder
  | v => do return (← Numeral.ofAlphabet v true).encoder

/-- A drift limit: its whole milliseconds, and all of it in microseconds. -/
structure DriftLimit where
  millis : Nat
  micros : Nat

namespace DriftLimit

/-- The limit of so many milliseconds. A fraction is rounded to microseconds
on its own, with a half going to the even neighbour. -/
def ofValue : Value → DriftLimit
  | .int i => ⟨i.toNat, i.toNat * 1000⟩
  | .bool b => ⟨b.toNat, b.toNat * 1000⟩
  | .float d =>
    let whole := d.toDouble.floor
    let rest := Rounding.double ((d.toDouble - whole) * 1000)
    ⟨whole.toNat, (Rounding.halfEven ((whole * 1000 : Int) + rest)).toNat⟩
  | _ => ⟨0, 0⟩

/-- The first number of microseconds that is no duration. -/
def maxMicros : Nat := 1000000000 * microsPerDay

end DriftLimit

namespace Codec

/-- The codec of settings, with an encoder of the caller's or that of the
alphabet, and with the shared epoch if the settings have none. The epoch is
taken over for good: later changes of the shared one do not matter. -/
def build [Host] (source : Settings.Source) (given : Option Encoder) (shared : Option Instant) :
    Logged Codec := do
  let settings ← Settings.load source
  let encoder ← match given with
    | some encoder => pure encoder
    | none => Encoder.ofAlphabet settings.alphabet
  let timestamps ← TimestampCodec.build (some encoder) settings.timestampWidth
    settings.subsecondBits settings.roundingDigits settings.customEpoch shared
  if h : timestamps.val.encoder.retainsSortOrder = true then
    return ⟨settings, timestamps.val, timestamps.property.1, timestamps.property.2.1,
      timestamps.property.2.2, h⟩
  else Logged.fail (.configuration .encoderUnordered)

variable (c : Codec)

/-- The encoder of both parts of an identifier. -/
def encoder : Encoder := c.timestamps.encoder

/-- The zero point of timestamps. -/
def epoch : Instant := c.timestamps.epoch

/-- The layout of the identifiers. -/
def layout : Layout := ⟨c.timestamps.width, c.timestamps.width_pos⟩

/-- The checksum of the identifiers. -/
def checksum : Checksum where
  layout := c.layout
  encoder := c.encoder
  method := .algorithm c.settings.checkDigitAlgorithm
  alphabet := c.settings.checkDigitAlphabet

/-! ### Decoding -/

/-- What a text stands for, or why it is no identifier. -/
def decodeText (id : String) : Except Error Identifier := do
  if !(← c.checksum.isValid (.text id)) then throw (.input .checksum)
  let parts ← c.layout.splitText id
  let timestamp ← c.timestamps.decode (.text parts.timestamp)
  let number ← c.encoder.decode parts.sequence
  if (← c.encoder.encode number) ≠ parts.sequence then throw (.input .notCanonical)
  let sequence := number / 10
  if Settings.maxSequence < sequence then
    throw (.showing sequence (.sequenceExceeds sequence Settings.maxSequence))
  return ⟨id, timestamp, sequence⟩

/-- What a value stands for, or why it is no identifier. -/
def decodeValue : Value → Except Error Identifier
  | .text s => c.decodeText s
  | _ => .error (.showing c.layout.width (.identifierTooShort c.layout.width))

/-- What a value stands for, if it is an identifier; a line says why it is
none. -/
def decode (v : Value) : Logged (Option Identifier) :=
  match c.decodeValue v with
  | .ok x => return some x
  | .error e =>
    if e.isRejection then do
      Logged.note (.notDecoded e)
      return none
    else Logged.fail e

/-- Whether a value is an identifier. -/
def isValid (v : Value) : Logged Bool := do return (← c.decode v).isSome

/-! ### Creating -/

/-- The decimal digit that a check character is. -/
def decimalDigit (c : Char) : Except Error Nat :=
  match Integer.read? [c] with
  | none => .error .notNumber
  | some i => if 0 ≤ i ∧ i ≤ 9 then .ok i.toNat else .error (.consistency (.checkDigit i))

/-- The identifier of a sequence at an instant. -/
def encode (sequence : Nat) (t : Instant) : Except Error String := do
  let timestamp ← c.timestamps.encode (DateTime.ofInstant t)
  let bare ← c.layout.join ⟨timestamp, ← c.encoder.encode sequence⟩
  let digit ← decimalDigit (← c.checksum.compute (.text bare))
  c.layout.join ⟨timestamp, ← c.encoder.encode (sequence * 10 + digit)⟩

/-- The distance of two instants in microseconds. -/
def drift (t u : Instant) : Nat := max t.micros u.micros - min t.micros u.micros

/-- Compares what an identifier decodes to with what it was made from. -/
def verify (sequence : Nat) (t : Instant) (x : Identifier) : Logged Unit :=
  if x.sequence ≠ sequence then
    Logged.fail (.consistency (.sequenceChanged x.id sequence x.sequence))
  else if x.timestamp = t then return ()
  else do
    let limit := DriftLimit.ofValue (← c.settings.driftLimit)
    Logged.note (.subsecondsAltered limit.millis t x.timestamp)
    if DriftLimit.maxMicros ≤ limit.micros then Logged.fail .driftLimitOverflow
    else if limit.micros < drift t x.timestamp then
      Logged.note (.driftExceeded x.id t x.timestamp limit.millis)
    else return ()

/-- Creates the identifier of a sequence at an instant, and checks it. -/
def createAt (sequence : Nat) (t : Instant) : Logged Identifier := do
  let id ← c.encode sequence t
  match ← c.decode (.text id) with
  | none => Logged.fail (.consistency (.undecodable id))
  | some x =>
    c.verify sequence t x
    return ⟨id, t, sequence⟩

/-- The sequence that a value should be. -/
def sequenceOf : Value → Except Error Nat
  | .int i =>
    if 0 ≤ i ∧ i ≤ Settings.maxSequence then .ok i.toNat
    else .error (.showing i (.sequenceRange i Settings.maxSequence))
  | v => .error (.input (.sequenceType v.typeName))

/-- Creates the identifier of a sequence at a timestamp, or at the present
time if there is none. -/
def create (sequence timestamp : Value) (now : DateTime) : Logged Identifier := do
  let sequence ← sequenceOf sequence
  let t ← match timestamp with
    | .null => now.toUtc
    | v => v.toUtc
  c.createAt sequence t

end Codec
end ChronoId
