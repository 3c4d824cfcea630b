/-
# Settings

What a codec can be set up with. Settings are fields of which each lies in its
range; they keep that with them. The check digit's alphabet has decimal digits
only, since the check digit becomes a decimal digit of the sequence. A caller
may give a field a value of any type, and the test asks no more of it than
that it compares like a number or is made of digits. What the test does not
ask, a codec asks when it needs the field: whether the alphabet is one,
whether the epoch is a date-time, and whether the numbers are integers.

Key definitions: `SettingsFields`, `SettingsFields.check`, `Settings`,
`Settings.ofFields`, `Settings.default`, `Settings.driftLimit`,
`Settings.maxSequence`.
-/
import ChronoId.CheckDigit.Algorithm
import ChronoId.Numeral

namespace ChronoId

/-- Settings as they are given, with defaults for what is not. -/
structure SettingsFields where
  /-- The alphabet of the identifiers. -/
  alphabet : Value := .text Numeral.crockford.alphabet
  /-- The characters of the timestamp. -/
  timestampWidth : Value := .int 9
  /-- The bits below the second that a timestamp keeps. -/
  subsecondBits : Value := .int 11
  /-- The decimal digits that a decoded fraction is rounded to. -/
  roundingDigits : Value := .int 3
  /-- The digits that a check digit is chosen from. -/
  checkDigitAlphabet : Value := .text "0123456789"
  checkDigitAlgorithm : Algorithm := .verhoeff
  /-- The zero point of timestamps, `null` for the shared one. -/
  customEpoch : Value := .null
  /-- The drift in milliseconds that is reported as an error when it is
  exceeded, `null` for what follows from the other fields. -/
  maxTimestampDelta : Value := .null

namespace SettingsFields

/-- A fault in a field. -/
def faulty (fault : SettingFault) : Except Error Unit := .error (.configuration (.setting fault))

/-- Asks for a verdict: without one the value has a type that cannot be
tested. -/
def require (verdict : Option Bool) (fault : SettingFault) : Except Error Unit :=
  match verdict with
  | some true => .ok ()
  | some false => faulty fault
  | none => .error .wrongType

/-- Whether a text lies between the digits zero and nine in the order of
texts. -/
def isDigitText (s : String) : Bool :=
  match s.toList with
  | [] => false
  | c :: rest => c.isDigit && (c ≠ '9' || rest.isEmpty)

/-- The texts that the parts of an alphabet should be. -/
def digitTexts : List Value → Except Error (List String)
  | [] => .ok []
  | .text s :: vs =>
    if isDigitText s then (digitTexts vs).map (s :: ·)
    else .error (.configuration (.setting .checkDigitAlphabetDigits))
  | _ :: _ => .error .wrongType

/-- Whether the check digit's alphabet consists of different digits. -/
def checkAlphabet : Value → Except Error Unit
  | .text s =>
    if s.toList.isEmpty || !s.toList.all Char.isDigit then faulty .checkDigitAlphabetDigits
    else require (some (Symbols.distinct s.toList)) .checkDigitAlphabetRepeats
  | v =>
    if v.isVoid then faulty .checkDigitAlphabetDigits
    else
      match v.parts? with
      | none => .error .wrongType
      | some parts => do
        let texts ← digitTexts parts
        require (some (Symbols.distinct texts)) .checkDigitAlphabetRepeats

/-- Whether a drift limit is none or not negative. -/
def checkDelta : Value → Except Error Unit
  | .null => .ok ()
  | v => require (v.atLeast? 0) .maxTimestampDelta

/-- Whether the rounding digits fit: without subseconds they are not even
looked at. -/
def checkDigits (bits digits : Value) : Except Error Unit :=
  if bits.atMost? 0 = some true then .ok ()
  else require (digits.within? 1 9) .roundingDigits

variable (f : SettingsFields)

/-- Tests the fields in their order. -/
def check : Except Error Unit := do
  require ((f.timestampWidth.atMost? 0).map (!·)) .timestampWidth
  require (f.subsecondBits.within? 0 maxSubsecondBits) .subsecondBits
  checkDigits f.subsecondBits f.roundingDigits
  checkAlphabet f.checkDigitAlphabet
  checkDelta f.maxTimestampDelta

end SettingsFields

/-- Settings in their ranges. -/
structure Settings extends SettingsFields where
  accepted : toSettingsFields.check = .ok ()

namespace Settings

/-- The settings of fields, unless one is out of its range: the first such
field is reported. -/
def ofFields (f : SettingsFields) : Except Error Settings :=
  match h : f.check with
  | .ok () => .ok ⟨f, h⟩
  | .error e => .error e

/-- The settings without a choice. -/
def default : Settings := ⟨{}, rfl⟩

/-- The largest sequence: one decimal place is kept for the check digit. -/
def maxSequence : Nat := maxValue / 10 - 1

/-- The quotient, rounded up. -/
def ceilDiv (a b : Nat) : Nat := (a + b - 1) / b

/-- A step of subseconds in milliseconds, rounded up. -/
def subsecondStep (bits : Nat) : Nat := ceilDiv 1000 (Nat.pow 2 bits)

/-- A step of the rounding digits in milliseconds, rounded up. -/
def roundingStep (digits : Nat) : Nat := ceilDiv 1000 (Nat.pow 10 digits)

/-- A step of rounding digits that are no integer: power and quotient are
doubles. -/
def fractionalStep (digits : Rat) : Nat :=
  (Rounding.double (1000 / Rounding.powerOfTen digits)).ceil.toNat

/-- The step of a value that should be a number of rounding digits. -/
def roundingStep? : Value → Option Nat
  | .float d => some (fractionalStep d.toDouble)
  | v => v.whole?.map fun digits => roundingStep digits.toInt.toNat

/-- The coarser one of two steps, at least one. -/
def stepLimit (subseconds rounding : Nat) : Nat := max 1 (max subseconds rounding)

/-- The drift in milliseconds that is tolerated without an error in the
journal: the limit that was set, or a second without subseconds, or the
coarser one of the two steps. -/
def driftLimit (s : Settings) : Except Error Value :=
  match s.maxTimestampDelta with
  | .null =>
    if s.subsecondBits.atMost? 0 = some true then .ok (.int 1000)
    else
      match s.subsecondBits.whole?, roundingStep? s.roundingDigits with
      | some bits, some rounding =>
        .ok (.int (stepLimit (subsecondStep bits.toInt.toNat) rounding))
      | _, _ => .error .wrongType
  | limit => .ok limit

/-- The settings with another epoch. -/
def withEpoch (s : Settings) (t : DateTime) : Settings :=
  ⟨{ s.toSettingsFields with customEpoch := .moment t }, s.accepted⟩

end Settings
end ChronoId
