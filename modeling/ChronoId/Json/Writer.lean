/-
# Writing JSON

Values are written without spaces. In a text only the quote, the backslash and
the control characters below the space are escaped; every other character
stands for itself.

Key definitions: `Json.write`, `Json.writeText`.
-/
import ChronoId.Text.Quoted
import ChronoId.Time.Format
import ChronoId.Value

namespace ChronoId
namespace Json

/-- One character of a text. -/
def escape (c : Char) : List Char :=
  if c = '"' then ['\\', '"']
  else if c = '\\' then ['\\', '\\']
  else if c = '\n' then ['\\', 'n']
  else if c = '\t' then ['\\', 't']
  else if c = '\r' then ['\\', 'r']
  else if c = '\x08' then ['\\', 'b']
  else if c = '\x0c' then ['\\', 'f']
  else if c.toNat < 0x20 then '\\' :: 'u' :: Text.hex 4 c.toNat
  else [c]

/-- A text with its quotes. -/
def writeText (cs : List Char) : List Char := '"' :: cs.flatMap escape ++ ['"']

mutual

/-- A value as JSON. -/
def write : Value → List Char
  | .null => "null".toList
  | .bool true => "true".toList
  | .bool false => "false".toList
  | .int i => Integer.write i
  | .float d => d.write
  | .text s => writeText s.toList
  | .moment t => writeText t.write
  | .array [] => "[]".toList
  | .array (v :: vs) => '[' :: write v ++ writeItems vs
  | .object [] => ['\x7b', '\x7d']
  | .object (m :: ms) => '\x7b' :: writeText m.1.toList ++ ':' :: write m.2 ++ writeMembers ms

/-- The items after the first, and the closing bracket. -/
def writeItems : List Value → List Char
  | [] => [']']
  | v :: vs => ',' :: write v ++ writeItems vs

/-- The members after the first, and the closing brace. -/
def writeMembers : List (String × Value) → List Char
  | [] => ['\x7d']
  | m :: ms => ',' :: writeText m.1.toList ++ ':' :: write m.2 ++ writeMembers ms

end

end Json
end ChronoId
