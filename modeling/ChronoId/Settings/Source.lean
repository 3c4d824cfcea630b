/-
# Where settings come from

Settings may be taken as they are, left to their defaults, or read from the
members of an object. Then every known member has to have its type, where an
algorithm is given by its name and the epoch by its text; the first that has
not, in the order of the object, is reported, and only then the ranges are
tested. Unknown members do not matter.

Key definitions: `SettingsFields.set`, `Settings.ofMembers`,
`Settings.Source`, `Settings.load`.
-/
import ChronoId.Settings.Basic
import ChronoId.Time.Rfc3339

namespace ChronoId
namespace SettingsFields

/-- A member that should hold a text. -/
def textOf (field : String) : Value → Except SettingFault Value
  | .text s => .ok (.text s)
  | v => .error (.wrongType "str" v.jsonName field)

/-- A member that should hold an integer. -/
def intOf (field : String) : Value → Except SettingFault Value
  | .int i => .ok (.int i)
  | v => .error (.wrongType "int" v.jsonName field)

/-- A member that should hold an integer or null. -/
def intOrNullOf (field : String) : Value → Except SettingFault Value
  | .null => .ok .null
  | .int i => .ok (.int i)
  | v => .error (.wrongType "int | null" v.jsonName field)

/-- The algorithm whose name a member should hold. -/
def algorithmOf (field : String) : Value → Except SettingFault Algorithm
  | .text name =>
    match Algorithm.ofName? name with
    | some a => .ok a
    | none => .error (.unknownAlgorithm name)
  | v => .error (.wrongType "str" v.jsonName field)

/-- The date-time that a member should hold, as one or as text, or null. -/
def epochOf (field : String) : Value → Except SettingFault Value
  | .null => .ok .null
  | .moment t => .ok (.moment t)
  | .text s =>
    match Rfc3339.read? s.toList with
    | some t => .ok (.moment t)
    | none => .error .badEpoch
  | v => .error (.wrongType "datetime | null" v.jsonName field)

/-- The fields with the one of a member set. -/
def set (f : SettingsFields) (member : String × Value) : Except SettingFault SettingsFields :=
  let (field, v) := member
  if field = "alphabet" then do
    return { f with alphabet := ← textOf field v }
  else if field = "timestamp_width" then do
    return { f with timestampWidth := ← intOf field v }
  else if field = "subsecond_bits" then do
    return { f with subsecondBits := ← intOf field v }
  else if field = "rounding_digits" then do
    return { f with roundingDigits := ← intOf field v }
  else if field = "check_digit_alphabet" then do
    return { f with checkDigitAlphabet := ← textOf field v }
  else if field = "check_digit_algorithm" then do
    return { f with checkDigitAlgorithm := ← algorithmOf field v }
  else if field = "custom_epoch" then do
    return { f with customEpoch := ← epochOf field v }
  else if field = "max_timestamp_delta_ms" then do
    return { f with maxTimestampDelta := ← intOrNullOf field v }
  else .ok f

/-- The fields with those of all members set. -/
def setAll : SettingsFields → List (String × Value) → Except SettingFault SettingsFields
  | f, [] => .ok f
  | f, m :: ms => do setAll (← f.set m) ms

end SettingsFields

namespace Settings

/-- The settings of an object's members. -/
def ofMembers (members : List (String × Value)) : Except Error Settings :=
  match SettingsFields.setAll {} members with
  | .ok f => (ofFields f).mapError Error.ofRead
  | .error fault => .error (.configuration (.settings fault))

/-- Where settings come from. -/
inductive Source where
  | defaults
  | ready (settings : Settings)
  | members (members : List (String × Value))

/-- The settings of a source. -/
def load : Source → Except Error Settings
  | .defaults => .ok default
  | .ready settings => .ok settings
  | .members members => ofMembers members

end Settings
end ChronoId
