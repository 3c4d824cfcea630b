/-
# Values of any type

What a caller may hand over where a number, a text or a date-time is expected,
and what a JSON text holds. A function that takes a value names the type it
was given when it refuses it; inside, everything works on the types proper.

Key definitions: `Value`, `Value.typeName`, `Value.jsonName`.
-/
import ChronoId.Text.Decimal
import ChronoId.Time.DateTime

namespace ChronoId

/-- A value of any type. A number with a fraction or an exponent is kept as it
was written. -/
inductive Value where
  | null
  | bool (b : Bool)
  | int (i : Int)
  | float (d : Decimal)
  | text (s : String)
  | array (items : List Value)
  | object (members : List (String × Value))
  | moment (t : DateTime)

namespace Value

/-- The name of a value's type in the messages about arguments. -/
def typeName : Value → String
  | .null => "NoneType"
  | .bool _ => "bool"
  | .int _ => "int"
  | .float _ => "float"
  | .text _ => "str"
  | .array _ => "list"
  | .object _ => "dict"
  | .moment _ => "datetime"

/-- The name of a value's type in the messages about settings. -/
def jsonName : Value → String
  | .null => "null"
  | .bool _ => "bool"
  | .int _ => "int"
  | .float _ => "float"
  | .text _ => "str"
  | .array _ => "array"
  | .object _ => "object"
  | .moment _ => "datetime"

end Value
end ChronoId
