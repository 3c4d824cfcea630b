/-
# Timestamps as numbers

A timestamp is packed into one number: the whole seconds since the epoch, and
below them a binary fraction of a second in `subsecondBits` bits. The fraction
is computed in doubles and rounded to the nearest, a half going up; if it
rounds to a whole second it carries into the seconds. With no bits the
fraction is dropped.

Unpacking turns the fraction into decimal. It is divided out to twenty-eight
digits, rounded to `roundingDigits` digits, a half going up, and then to
microseconds, so that repeated round trips settle. A packed number may be any
integer; what lies outside the calendar is rejected.

As text, a packed timestamp is padded to a fixed width, and one that needs
more is rejected.

Key definitions: `Timestamp.packMicros`, `Timestamp.unpackMicros`,
`TimestampCodec`, `TimestampCodec.build`, `TimestampCodec.pack`,
`TimestampCodec.unpack`, `TimestampCodec.encode`, `TimestampCodec.decode`.
-/
import ChronoId.Encoder
import ChronoId.Rounding
import ChronoId.Time.Elapsed
import ChronoId.Value.Number

namespace ChronoId
namespace Timestamp

/-- The binary fraction, in steps of `1 / 2 ^ bits`, nearest to a number of
nanoseconds, as doubles compute it. -/
def subseconds (bits nanos : Nat) : Int :=
  let fraction := Rounding.double ((nanos : Rat) / 1000000000)
  let steps := Rounding.double (fraction * (Nat.pow 2 bits : Nat))
  (Rounding.double (steps + 1 / 2)).floor

/-- The packed form of a number of microseconds. A full field of subseconds is
a second more. -/
def packMicros (bits micros : Nat) : Nat :=
  if bits = 0 then Elapsed.seconds micros
  else Elapsed.seconds micros * Nat.pow 2 bits + (subseconds bits (Elapsed.nanos micros)).toNat

/-- The microseconds of `steps` steps of `1 / 2 ^ bits` seconds, rounded to
`digits` decimal digits first. -/
def fractionMicros (bits digits : Nat) (steps : Int) : Int :=
  let quotient := Rounding.decimal ((steps : Rat) / (Nat.pow 2 bits : Nat))
  let unit : Rat := (Nat.pow 10 digits : Nat)
  let fraction := (Rounding.halfUp (quotient * unit) : Rat) / unit
  let nanos := Rounding.halfUp (fraction * 1000000000)
  (nanos + 500) / 1000

/-- The microseconds that a packed number stands for. -/
def unpackMicros (bits digits : Nat) (packed : Int) : Int :=
  if bits = 0 then packed * 1000000
  else
    packed / (Nat.pow 2 bits : Nat) * 1000000
      + fractionMicros bits digits (packed % (Nat.pow 2 bits : Nat))

end Timestamp

/-- A way to write timestamps as text of a fixed width. -/
structure TimestampCodec where
  encoder : Encoder
  width : Nat
  subsecondBits : Nat
  roundingDigits : Whole
  epoch : Instant
  width_pos : 0 < width
  bits_le : subsecondBits ≤ maxSubsecondBits
  /-- The rounding matters only where there are subseconds. -/
  digits_range : 0 < subsecondBits → 1 ≤ roundingDigits.toInt ∧ roundingDigits.toInt ≤ 9

namespace TimestampCodec

/-! ### Building -/

/-- The largest exponent of a decimal. -/
def maxExponent : Int := 999999

/-- The furthest that an exponent can be shifted. -/
def maxShift : Int := 2000054

/-- A tenth to the power of `digits` is the unit that a decoded fraction is
rounded to, and has to be a decimal even where nothing is rounded to it. -/
def checkRoundingUnit (digits : Int) : Except Error Unit :=
  if maxShift < digits ∨ digits < -maxShift then .error .roundingUnitUndefined
  else if digits < -maxExponent then .error .roundingUnitOverflow
  else .ok ()

/-- An integer with a positive part is that part. -/
theorem eq_toNat_of_pos {i : Int} (h : 0 < i.toNat) : i = i.toNat := by omega

/-- The width that a value gives. -/
def width? : (v : Value) → Option { w : Nat // 0 < w ∧ v = .int w }
  | .int i =>
    if h : 0 < i.toNat then some ⟨i.toNat, h, congrArg Value.int (eq_toNat_of_pos h)⟩ else none
  | _ => none

/-- The number of subsecond bits that a value gives. -/
def bits? : (v : Value) → Except Error { b : Nat // b ≤ maxSubsecondBits ∧ v = .int b }
  | .int i =>
    if h : 0 ≤ i ∧ i.toNat ≤ maxSubsecondBits then .ok ⟨i.toNat, h.2, congrArg Value.int (by omega)⟩
    else .error (.configuration .subsecondBitsRange)
  | _ => .error (.configuration .subsecondBitsType)

/-- The rounding digits that a value gives. Their range is tested before they
have to be whole. -/
def digits? (bits : Nat) (v : Value) :
    Except Error { d : Whole // (0 < bits → 1 ≤ d.toInt ∧ d.toInt ≤ 9) ∧ v = d.toValue } :=
  match h : v.whole? with
  | some d =>
    if hRange : 0 < bits → 1 ≤ d.toInt ∧ d.toInt ≤ 9 then do
      checkRoundingUnit d.toInt
      return ⟨d, hRange, Value.whole?_eq_some h⟩
    else .error (.configuration .roundingDigits)
  | none =>
    if 0 < bits ∧ v.within? 1 9 = some false then .error (.configuration .roundingDigits)
    else .error .wrongType

/-- The epoch that a value gives: its own, or the shared one where there is
none. -/
def epochOf (shared : Option Instant) : Value → Except Error Instant
  | .null =>
    match shared with
    | some i => .ok i
    | none => .error (.configuration .epochUnset)
  | .moment t => t.toUtc
  | v => .error (.configuration (.epochType v.typeName))

/-- A timestamp codec of values that have to be tested; what they give is what
the codec has. -/
def build (encoder : Option Encoder) (width bits digits epoch : Value) (shared : Option Instant) :
    Except Error { c : TimestampCodec //
      width = .int c.width ∧ bits = .int c.subsecondBits ∧ digits = c.roundingDigits.toValue } :=
  match encoder with
  | none => .error (.configuration .noEncoder)
  | some encoder =>
    match width? width with
    | none => .error (.configuration .timestampWidth)
    | some w => do
      let b ← bits? bits
      let d ← digits? b.val digits
      let e ← epochOf shared epoch
      return ⟨⟨encoder, w.val, b.val, d.val, e, w.property.1, b.property.1, d.property.1⟩,
        w.property.2, b.property.2, d.property.2⟩

variable (c : TimestampCodec)

/-! ### Packing -/

/-- The number that stands for a timestamp. -/
def pack (t : DateTime) : Except Error Nat :=
  (Elapsed.micros t (DateTime.ofInstant c.epoch)).map (Timestamp.packMicros c.subsecondBits)

/-- The instant that a number stands for. -/
def unpack (packed : Int) : Except Error Instant :=
  match c.epoch.shift?
      (Timestamp.unpackMicros c.subsecondBits c.roundingDigits.toInt.toNat packed) with
  | some i => .ok i
  | none => .error (.input .timestampOutOfRange)

/-- The instant of a value that should be a whole number. -/
def unpackValue (packed : Value) : Except Error Instant :=
  match packed.whole? with
  | some w => c.unpack w.toInt
  | none => .error .wrongType

/-! ### Text -/

/-- The text of a timestamp. -/
def encode (t : DateTime) : Except Error String := do
  let packed ← c.pack t
  let text ← c.encoder.pad (← c.encoder.encode packed) c.width
  if c.width < text.length then .error (.input (.timestampTooWide text c.width)) else .ok text

/-- The instant of a timestamp's text. -/
def decode (v : Value) : Except Error Instant := do
  c.unpack (← c.encoder.decodeValue v)

end TimestampCodec
end ChronoId
