/-
# What can go wrong

The causes for which a call is refused, and the wording of each. There are
three families with a wording: a configuration that cannot be used, an input
that is rejected, and an identifier that was just made and does not decode to
what it was made from. The other errors come from below: a point in time
outside the calendar, an unknown algorithm, a value of a type that nothing is
made for, a settings file that cannot be read. One of them takes the place of a
rejection whose wording would show an integer that is too long to be shown.
`Error.isRejection` marks those that decoding an identifier turns into "no
identifier".

Key definitions: `ConfigurationFault`, `InputFault`, `ConsistencyFault`,
`Error`, `Error.showing`, `Error.message?`, `Error.isRejection`.
-/
import ChronoId.Text.Integer
import ChronoId.Text.Quoted
import ChronoId.Time.Format

namespace ChronoId

/-- The largest number that an encoder takes, the largest that fits into a
signed column of sixty-four bits. -/
def maxValue : Nat := 9223372036854775807

/-- The largest number of subsecond bits. -/
def maxSubsecondBits : Nat := 62

/-- What is wrong with one setting. -/
inductive SettingFault where
  | timestampWidth
  | subsecondBits
  | roundingDigits
  | checkDigitAlphabetDigits
  | checkDigitAlphabetRepeats
  | maxTimestampDelta
  | wrongType (expected got field : String)
  | unknownAlgorithm (name : String)
  | badEpoch

/-- A configuration that cannot be used. -/
inductive ConfigurationFault where
  | alphabetSize
  | alphabetBlank
  | alphabetRepeats
  | alphabetUnsorted (alphabet : String)
  | noEncoder
  | timestampWidth
  | subsecondBitsType
  | subsecondBitsRange
  | roundingDigits
  | epochUnset
  | epochType (typeName : String)
  | encoderUnordered
  | targetBlank
  | targetRepeats
  | methodType
  | setting (fault : SettingFault)
  | settings (fault : SettingFault)
  | settingsNotJson
  | settingsNotObject
  | settingsFileMissing (path : String)

/-- An input that is rejected. -/
inductive InputFault where
  | notInteger (typeName : String)
  | negative
  | tooLarge
  | encodedMissing
  | encodedTooLong (size limit : Nat)
  | notInAlphabet (c : Char)
  | decodedTooLarge
  | notDateTime (typeName : String)
  | beforeEpoch (timestamp epoch : DateTime)
  | timestampOutOfRange
  | timestampTooWide (encoded : String) (width : Nat)
  | timestampSize (width size : Nat)
  | sequenceMissing
  | identifierTooShort (width : Nat)
  | notDigit (c : Char)
  | notAlphanumeric (c : Char)
  | noCode
  | zeroSum
  | notUtf8
  | payloadMissing
  | checkDigitMissing
  | checkDigitNotInteger (bytes : ByteArray)
  | checksum
  | notCanonical
  | sequenceExceeds (sequence limit : Nat)
  | sequenceType (typeName : String)
  | sequenceRange (sequence : Int) (limit : Nat)

/-- A new identifier that does not decode to what it was made from. -/
inductive ConsistencyFault where
  | checkDigit (value : Int)
  | undecodable (id : String)
  | sequenceChanged (id : String) (sequence decoded : Nat)

/-- Why a settings file cannot be read, other than that it is missing. -/
inductive FileProblem where
  | notText
  | isDirectory
  | throughFile
  | nameTooLong
  | nulInName

/-- Everything that can go wrong. -/
inductive Error where
  | configuration (fault : ConfigurationFault)
  | input (fault : InputFault)
  | consistency (fault : ConsistencyFault)
  /-- UTC has no reading for a date-time. -/
  | calendarOverflow
  /-- The drift limit is longer than a duration can be. -/
  | driftLimitOverflow
  /-- The rounding unit has an exponent outside the reach of a shift. -/
  | roundingUnitUndefined
  /-- The rounding unit is larger than the largest decimal. -/
  | roundingUnitOverflow
  /-- There is no check digit algorithm of this name. -/
  | unknownAlgorithm (name : String)
  /-- A letter whose lower case is more than one character has no value. -/
  | letterExpands
  /-- An algorithm's answer is not a number where one is needed. -/
  | notNumber
  /-- An integer has too many digits to be shown. -/
  | integerTooLong
  /-- A value has a type that the operation is not made for. -/
  | wrongType
  /-- There is no encoder where one is needed. -/
  | encoderMissing
  /-- A text would be longer than texts can be. -/
  | textTooLong
  /-- A text would not fit into memory. -/
  | outOfMemory
  /-- The settings text has more brackets inside one another than are read. -/
  | settingsTooDeep
  /-- There is no object of this name. -/
  | nothingNamed (name : String)
  | settingsFile (problem : FileProblem)

namespace SettingFault

/-- The wording of a fault in one setting. -/
def message : SettingFault → String
  | .timestampWidth => "timestamp_width must be positive"
  | .subsecondBits =>
    "subsecond_bits must be between 0 and " ++ Integer.text maxSubsecondBits
  | .roundingDigits => "rounding_digits must be between 1 and 9"
  | .checkDigitAlphabetDigits => "check_digit_alphabet must consist of decimal digits"
  | .checkDigitAlphabetRepeats => "check_digit_alphabet contains duplicate characters"
  | .maxTimestampDelta => "max_timestamp_delta_ms must not be negative"
  | .wrongType expected got field =>
    "Expected `" ++ expected ++ "`, got `" ++ got ++ "` - at `$." ++ field ++ "`"
  | .unknownAlgorithm name =>
    "Invalid enum value " ++ Text.quote name ++ " - at `$.check_digit_algorithm`"
  | .badEpoch => "Invalid RFC3339 encoded datetime - at `$.custom_epoch`"

end SettingFault

namespace ConfigurationFault

/-- The wording of a configuration fault; the codec's refusal of an encoder
that does not keep the order has none. -/
def message? : ConfigurationFault → Option String
  | .alphabetSize => some "Alphabet must contain between 2 and 2**31 - 1 characters"
  | .alphabetBlank => some "Alphabet must not contain whitespace"
  | .alphabetRepeats => some "Alphabet must not contain duplicate characters"
  | .alphabetUnsorted alphabet =>
    some ("Alphabet " ++ Text.quote alphabet ++ " is not sorted and cannot retain sort order")
  | .noEncoder => some "Timestamp encoder requires an integer encoder"
  | .timestampWidth => some "Timestamp width must be a positive integer"
  | .subsecondBitsType => some "Subsecond bits must be an integer"
  | .subsecondBitsRange =>
    some ("Subsecond bits must be between 0 and " ++ Integer.text maxSubsecondBits)
  | .roundingDigits => some "Rounding digits must be between 1 and 9"
  | .epochUnset => some "Custom epoch is not set; call set_custom_epoch() during start-up"
  | .epochType typeName => some ("Expected a datetime, got " ++ typeName)
  | .encoderUnordered => none
  | .targetBlank => some "Check digit alphabet must not be blank"
  | .targetRepeats => some "Check digit alphabet contains duplicate characters"
  | .methodType => some "Check digit algorithm must be a CheckDigitAlgorithm or a callable"
  | .setting fault => some fault.message
  | .settings fault => some ("Invalid identifier settings: " ++ fault.message)
  | .settingsNotJson => some "Failed to decode SORTID_SETTINGS as JSON"
  | .settingsNotObject => some "SORTID_SETTINGS must hold a JSON object"
  | .settingsFileMissing path =>
    some ("Identifier settings file at '" ++ path ++ "' not found")

end ConfigurationFault

namespace InputFault

/-- The wording of a rejection. -/
def message : InputFault → String
  | .notInteger typeName => "Expected an integer, got " ++ typeName
  | .negative => "Only non-negative integers can be encoded"
  | .tooLarge => "Value exceeds " ++ Integer.text maxValue
  | .encodedMissing => "Encoded value must be a non-empty string"
  | .encodedTooLong size limit =>
    "Encoded value has " ++ Integer.text size ++ " significant characters, at most "
      ++ Integer.text limit ++ " are allowed"
  | .notInAlphabet c =>
    "Character " ++ Text.quote (String.singleton c) ++ " is not part of the alphabet"
  | .decodedTooLarge => "Decoded value exceeds " ++ Integer.text maxValue
  | .notDateTime typeName => "Expected a datetime, got " ++ typeName
  | .beforeEpoch timestamp epoch =>
    "Timestamp " ++ timestamp.text ++ " precedes the custom epoch " ++ epoch.text
  | .timestampOutOfRange => "Decoded timestamp is out of range"
  | .timestampTooWide encoded width =>
    "Encoded timestamp " ++ Text.quote encoded ++ " exceeds " ++ Integer.text width
      ++ " characters; widen the timestamp or use fewer subsecond bits"
  | .timestampSize width size =>
    "Encoded timestamp must be exactly " ++ Integer.text width ++ " characters, got "
      ++ Integer.text size
  | .sequenceMissing => "Encoded sequence must not be empty"
  | .identifierTooShort width =>
    "Identifier must be longer than " ++ Integer.text width ++ " characters"
  | .notDigit c =>
    "Invalid character " ++ Text.quote (String.singleton c) ++ ", expected a decimal digit"
  | .notAlphanumeric c =>
    "Invalid character " ++ Text.quote (String.singleton c) ++ ", expected [0-9A-Za-z]"
  | .noCode => "No code provided"
  | .zeroSum => "Invalid code, sum is zero"
  | .notUtf8 => "Check digit input must be valid UTF-8"
  | .payloadMissing => "Check digit payload must not be empty"
  | .checkDigitMissing => "Missing check digit"
  | .checkDigitNotInteger bytes =>
    "Check digit algorithm returned a non-integer value: " ++ Text.quoteBytes bytes
  | .checksum => "Invalid checksum"
  | .notCanonical => "Sequence is not canonically encoded"
  | .sequenceExceeds sequence limit =>
    "Sequence " ++ Integer.text sequence ++ " exceeds " ++ Integer.text limit
  | .sequenceType typeName => "Sequence must be an integer, got " ++ typeName
  | .sequenceRange sequence limit =>
    "Sequence must be between 0 and " ++ Integer.text limit ++ ", got " ++ Integer.text sequence

end InputFault

namespace ConsistencyFault

/-- The wording of a failed self-check. -/
def message : ConsistencyFault → String
  | .checkDigit value => "Check digit " ++ Integer.text value ++ " is not a decimal digit"
  | .undecodable id => "Generated ID " ++ Text.quote id ++ " can't be decoded"
  | .sequenceChanged id sequence decoded =>
    "Generated ID " ++ Text.quote id ++ " decodes incorrectly (sequence): "
      ++ Integer.text sequence ++ " -> " ++ Integer.text decoded

end ConsistencyFault

namespace Error

/-- The rejection of an input whose wording shows the integer `i`. -/
@[irreducible]
def showing (i : Int) (fault : InputFault) : Error :=
  if i.natAbs < Nat.pow 10 Integer.maxDigits then .input fault else .integerTooLong

/-- The wording of an error, if it has one. -/
def message? : Error → Option String
  | .configuration fault => fault.message?
  | .input fault => some fault.message
  | .consistency fault => some fault.message
  | .integerTooLong =>
    some ("Exceeds the limit (" ++ Integer.text Integer.maxDigits ++ " digits) for integer string "
      ++ "conversion; use sys.set_int_max_str_digits() to increase the limit")
  | _ => none

/-- The wording of an error, empty if it has none. -/
def message (e : Error) : String := e.message?.getD ""

/-- Whether the error belongs to one of the three families with a wording. -/
def isOwn : Error → Bool
  | .configuration _ => true
  | .input _ => true
  | .consistency _ => true
  | _ => false

/-- The error of settings that were given one by one, as one of settings that
were read. -/
def ofRead : Error → Error
  | .configuration (.setting fault) => .configuration (.settings fault)
  | e => e

/-- Whether decoding an identifier takes the error for a malformed one: the
three families do, and so does whatever is wrong about a value. -/
def isRejection : Error → Bool
  | .configuration _ => true
  | .input _ => true
  | .consistency _ => true
  | .unknownAlgorithm _ => true
  | .notNumber => true
  | .integerTooLong => true
  | .settingsFile .notText => true
  | .settingsFile .nulInName => true
  | _ => false

end Error
end ChronoId
