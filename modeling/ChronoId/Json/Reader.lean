/-
# Reading JSON

The reader takes exactly the texts of RFC 8259, with blanks around the value.
In particular there is no byte-order mark, no comma before a closing bracket,
no comment, no zero in front of a number, no control character inside a text,
and no half of a surrogate pair. A number with a fraction or an exponent has
to lie in the range of a double, and a whole number must not be too long. If
an object has a key twice, the member keeps its first place and takes its last
value. Brackets and braces may stand inside one another up to a limit, and
where it is exceeded the reader stops at once, whatever follows.

The readers carry fuel, which `Json.readWithin` takes from the length of the
text; it never runs out before the text does.

Key definitions: `Json.read`, `Json.readWithin`, `Json.Limits`,
`Json.readValue`, `Json.readNumber?`, `Json.readText?`.
-/
import ChronoId.Host
import ChronoId.Value

namespace ChronoId
namespace Json

/-- The blanks of JSON. -/
def isBlank (c : Char) : Bool := c = ' ' || c = '\n' || c = '\t' || c = '\r'

/-- What follows the blanks in front. -/
def skipBlanks (cs : List Char) : List Char := cs.dropWhile isBlank

/-- How much a reader takes. -/
structure Limits where
  /-- The most characters of a whole number, with its sign. -/
  wholeLength : Nat
  /-- The most brackets and braces that may be open at once. -/
  depth : Nat

/-- What readers take on a host. -/
def Limits.ofHost [Host] : Limits := ⟨4300, Host.depth⟩

/-- Why a text is not read. -/
inductive Problem where
  | malformed
  | tooDeep
deriving DecidableEq

/-- A reading that fails only because the text is malformed. -/
def orMalformed {α : Type} : Option α → Except Problem α
  | some a => .ok a
  | none => .error .malformed

/-! ### Numbers -/

/-- A number, and the rest. -/
def readNumber? (limits : Limits) (cs : List Char) : Option (Value × List Char) := do
  let (d, rest) ← Decimal.read? cs
  if d.isWhole then
    if cs.length - rest.length ≤ limits.wholeLength then some (.int d.toInt, rest) else none
  else if d.inDoubleRange then some (.float d, rest)
  else none

/-! ### Texts -/

/-- The value of a hexadecimal digit of either case. -/
def hexValue? (c : Char) : Option Nat :=
  if c.isDigit then some (c.toNat - '0'.toNat)
  else if 'a' ≤ c ∧ c ≤ 'f' then some (c.toNat - 'a'.toNat + 10)
  else if 'A' ≤ c ∧ c ≤ 'F' then some (c.toNat - 'A'.toNat + 10)
  else none

/-- The code unit of four hexadecimal digits, and the rest. -/
def readUnit? : List Char → Option (Nat × List Char)
  | a :: b :: c :: d :: rest => do
    let a ← hexValue? a
    let b ← hexValue? b
    let c ← hexValue? c
    let d ← hexValue? d
    some (((a * 16 + b) * 16 + c) * 16 + d, rest)
  | _ => none

/-- The low half of a surrogate pair, and the rest. -/
def readLowHalf? : List Char → Option (Nat × List Char)
  | '\\' :: 'u' :: cs => do
    let (unit, rest) ← readUnit? cs
    if 0xdc00 ≤ unit ∧ unit ≤ 0xdfff then some (unit - 0xdc00, rest) else none
  | _ => none

/-- The character of an escape by code units, behind the `u`, and the rest. -/
def readEscapedUnit? (cs : List Char) : Option (Char × List Char) := do
  let (unit, rest) ← readUnit? cs
  if 0xd800 ≤ unit ∧ unit ≤ 0xdbff then
    let (low, rest) ← readLowHalf? rest
    some (Char.ofNat (0x10000 + (unit - 0xd800) * 0x400 + low), rest)
  else if 0xdc00 ≤ unit ∧ unit ≤ 0xdfff then none
  else some (Char.ofNat unit, rest)

/-- The character of an escape, behind the backslash, and the rest. -/
def readEscape? : List Char → Option (Char × List Char)
  | '"' :: rest => some ('"', rest)
  | '\\' :: rest => some ('\\', rest)
  | '/' :: rest => some ('/', rest)
  | 'b' :: rest => some ('\x08', rest)
  | 'f' :: rest => some ('\x0c', rest)
  | 'n' :: rest => some ('\n', rest)
  | 'r' :: rest => some ('\r', rest)
  | 't' :: rest => some ('\t', rest)
  | 'u' :: rest => readEscapedUnit? rest
  | _ => none

/-- The characters of a text, behind the opening quote, and what follows the
closing one. -/
def readText? : (fuel : Nat) → List Char → Option (List Char × List Char)
  | 0, _ => none
  | _ + 1, [] => none
  | fuel + 1, c :: cs =>
    if c = '"' then some ([], cs)
    else if c = '\\' then do
      let (d, rest) ← readEscape? cs
      let (ds, rest) ← readText? fuel rest
      some (d :: ds, rest)
    else if c.toNat < 0x20 then none
    else do
      let (ds, rest) ← readText? fuel cs
      some (c :: ds, rest)

/-! ### Values -/

/-- Gives `key` a value: in its place if it has one, and otherwise at the
end. -/
def put (key : String) (v : Value) : List (String × Value) → List (String × Value)
  | [] => [(key, v)]
  | m :: ms => if m.1 = key then (key, v) :: ms else m :: put key v ms

/-- The object of members in the order of the text. -/
def collect (members : List (String × Value)) : List (String × Value) :=
  members.foldl (fun object m => put m.1 m.2 object) []

/-- A key and the colon behind it, and the rest. -/
def readKey? (fuel : Nat) (cs : List Char) : Option (String × List Char) :=
  match skipBlanks cs with
  | '"' :: rest => do
    let (key, rest) ← readText? fuel rest
    match skipBlanks rest with
    | ':' :: rest => some (String.ofList key, rest)
    | _ => none
  | _ => none

mutual

/-- A value, and the rest; `room` more brackets and braces may be opened. -/
def readValue (limits : Limits) :
    (fuel room : Nat) → List Char → Except Problem (Value × List Char)
  | 0, _, _ => .error .malformed
  | fuel + 1, room, cs =>
    match skipBlanks cs with
    | '"' :: rest => do
      let (text, rest) ← orMalformed (readText? fuel rest)
      return (.text (String.ofList text), rest)
    | '[' :: rest =>
      if room = 0 then .error .tooDeep
      else
        match skipBlanks rest with
        | ']' :: rest => .ok (.array [], rest)
        | rest => do
          let (items, rest) ← readItems limits fuel (room - 1) rest
          return (.array items, rest)
    | '\x7b' :: rest =>
      if room = 0 then .error .tooDeep
      else
        match skipBlanks rest with
        | '\x7d' :: rest => .ok (.object [], rest)
        | rest => do
          let (members, rest) ← readMembers limits fuel (room - 1) rest
          return (.object (collect members), rest)
    | 'n' :: 'u' :: 'l' :: 'l' :: rest => .ok (.null, rest)
    | 't' :: 'r' :: 'u' :: 'e' :: rest => .ok (.bool true, rest)
    | 'f' :: 'a' :: 'l' :: 's' :: 'e' :: rest => .ok (.bool false, rest)
    | rest => orMalformed (readNumber? limits rest)

/-- One or more items and the closing bracket, and the rest. -/
def readItems (limits : Limits) :
    (fuel room : Nat) → List Char → Except Problem (List Value × List Char)
  | 0, _, _ => .error .malformed
  | fuel + 1, room, cs => do
    let (v, rest) ← readValue limits fuel room cs
    match skipBlanks rest with
    | ']' :: rest => return ([v], rest)
    | ',' :: rest => do
      let (vs, rest) ← readItems limits fuel room rest
      return (v :: vs, rest)
    | _ => .error .malformed

/-- One or more members and the closing brace, and the rest. -/
def readMembers (limits : Limits) :
    (fuel room : Nat) → List Char → Except Problem (List (String × Value) × List Char)
  | 0, _, _ => .error .malformed
  | fuel + 1, room, cs => do
    let (key, rest) ← orMalformed (readKey? fuel cs)
    let (v, rest) ← readValue limits fuel room rest
    match skipBlanks rest with
    | '\x7d' :: rest => return ([(key, v)], rest)
    | ',' :: rest => do
      let (ms, rest) ← readMembers limits fuel room rest
      return ((key, v) :: ms, rest)
    | _ => .error .malformed

end

/-- The value that a text holds, within limits. -/
def readWithin (limits : Limits) (text : String) : Except Problem Value := do
  let cs := text.toList
  let (v, rest) ← readValue limits (2 * cs.length + 2) limits.depth cs
  if (skipBlanks rest).isEmpty then return v else .error .malformed

/-- The value that a text holds. -/
def read [Host] (text : String) : Except Problem Value := readWithin Limits.ofHost text

end Json
end ChronoId
