/-
# Numerals over an alphabet

A numeral system has an alphabet of two or more different symbols without
blanks; the position of a symbol is the value of the digit. It writes numbers
up to `maxValue` with the most significant digit first and no superfluous
zero, reads them back with any number of zeros in front, and pads with zeros.
If the alphabet is in ascending order, which the system may be asked to insist
on, numerals of equal length compare like their numbers.

Key definitions: `Numeral`, `Numeral.ofAlphabet`, `Numeral.encode`,
`Numeral.decode`, `Numeral.pad`, `Numeral.decimal`, `Numeral.crockford`.
-/
import ChronoId.Host
import ChronoId.Journal
import ChronoId.Text.Symbols
import ChronoId.Value.Number
import ChronoId.Value.Sequence

namespace ChronoId

/-- The most symbols that an alphabet may have. -/
def Numeral.maxSymbols : Nat := 2147483647

/-- A numeral system. -/
structure Numeral where
  symbols : List Char
  /-- Whether the order of numbers is promised to be that of padded numerals. -/
  retainsSortOrder : Bool
  two_le : 2 ≤ symbols.length
  le_maxSymbols : symbols.length ≤ Numeral.maxSymbols
  noBlank : ∀ c ∈ symbols, Text.isBlank c = false
  nodup : symbols.Nodup
  sorted : retainsSortOrder = true → symbols.Pairwise (· < ·)

namespace Numeral

/-- The numeral system of symbols that have passed the tests. -/
def ofChecked (symbols : List Char) (retainsSortOrder : Bool)
    (size : 2 ≤ symbols.length ∧ symbols.length ≤ maxSymbols)
    (noBlank : symbols.all (!Text.isBlank ·) = true) (nodup : Symbols.distinct symbols = true)
    (sorted : (!retainsSortOrder || Symbols.ascending symbols) = true) : Numeral where
  symbols := symbols
  retainsSortOrder := retainsSortOrder
  two_le := size.1
  le_maxSymbols := size.2
  noBlank := by simpa using noBlank
  nodup := (Symbols.distinct_iff symbols).mp nodup
  sorted := fun h => (Symbols.ascending_iff symbols).mp (by simpa [h] using sorted)

/-- The numeral system of an alphabet, without its line in the journal. -/
def ofAlphabet? (alphabet : Value) (retainsSortOrder : Bool) : Except Error Numeral :=
  match alphabet with
  | .text s =>
    let symbols := s.toList
    if hSize : 2 ≤ symbols.length ∧ symbols.length ≤ maxSymbols then
      if hBlank : symbols.all (!Text.isBlank ·) = true then
        if hNodup : Symbols.distinct symbols = true then
          if hSorted : (!retainsSortOrder || Symbols.ascending symbols) = true then
            .ok (ofChecked symbols retainsSortOrder hSize hBlank hNodup hSorted)
          else .error (.configuration (.alphabetUnsorted s))
        else .error (.configuration .alphabetRepeats)
      else .error (.configuration .alphabetBlank)
    else .error (.configuration .alphabetSize)
  | _ => .error (.configuration .alphabetSize)

/-- Decimal numerals. -/
def decimal : Numeral :=
  ofChecked "0123456789".toList true (by decide) (by decide) (by decide) (by decide)

/-- Crockford's base 32: the digits and the lower-case letters but `i`, `l`,
`o` and `u`. -/
def crockford : Numeral :=
  ofChecked "0123456789abcdefghjkmnpqrstvwxyz".toList true
    (by decide) (by decide) (by decide) (by decide)

variable (n : Numeral)

/-- The alphabet as text. -/
def alphabet : String := String.ofList n.symbols

/-- The number of symbols. -/
def radix : Nat := n.symbols.length

/-- The symbol for zero. -/
def zero : Char := n.symbols.get ⟨0, by have := n.two_le; omega⟩

/-- The symbol for the digit `d`. -/
def symbol (d : Nat) : Char := n.symbols.getD d n.zero

/-- The numeral of `v`. -/
def write (v : Nat) : List Char := (Positional.digits n.radix v).map n.symbol

/-- The number of digits of the largest number. -/
def maxLength : Nat := (n.write maxValue).length

/-- The numeral of `v`, unless `v` is too large. -/
def encode (v : Nat) : Except Error String :=
  if v ≤ maxValue then .ok (String.ofList (n.write v)) else .error (.input .tooLarge)

/-- The numeral of a value that should be an integer that is not negative. -/
def encodeValue : Value → Except Error String
  | .int i => if i < 0 then .error (.input .negative) else n.encode i.toNat
  | v => .error (.input (.notInteger v.typeName))

/-- The digits of a numeral without the zeros in front, but at least one. -/
def significant (cs : List Char) : List Char :=
  match cs.dropWhile (· = n.zero) with
  | [] => [n.zero]
  | c :: rest => c :: rest

/-- The number that `cs`, made of symbols, stands for. -/
def value (cs : List Char) : Nat := Positional.value n.radix (cs.map n.symbols.idxOf)

/-- The number of a numeral: zeros in front do not count, neither for its
length nor for its value. -/
def decode (s : String) : Except Error Nat :=
  if s.toList.isEmpty then .error (.input .encodedMissing)
  else
    let cs := n.significant s.toList
    if n.maxLength < cs.length then .error (.input (.encodedTooLong cs.length n.maxLength))
    else
      match cs.find? (!n.symbols.contains ·) with
      | some c => .error (.input (.notInAlphabet c))
      | none =>
        if n.value cs ≤ maxValue then .ok (n.value cs) else .error (.input .decodedTooLarge)

section Padding

variable [Host]

/-- So many zeros, if there is a text of that size, and memory for it. -/
def zeros (count : Nat) : Except Error (List Char) :=
  if Text.maxLength < count then .error .textTooLong
  else if Host.memory < count then .error .outOfMemory
  else .ok (List.replicate count n.zero)

/-- `encoded` with zeros in front up to `width` characters; never shorter. -/
def pad (encoded : String) (width : Int) : Except Error String := do
  let cs := encoded.toList
  return String.ofList ((← n.zeros (width - (cs.length : Int)).toNat) ++ cs)

/-- The padding of any value that has a size, up to any number: without need
of a zero the value stays as it is, and only a text takes zeros. -/
def padValue (encoded width : Value) : Except Error Value :=
  match encoded.size? with
  | none => .error .wrongType
  | some size =>
    match width.atMost? size with
    | none => .error .wrongType
    | some true => .ok encoded
    | some false =>
      match width.whole?, encoded with
      | some w, .text s => (n.pad s w.toInt).map .text
      | some w, _ => (n.zeros (w.toInt - size).toNat).bind fun _ => .error .wrongType
      | none, _ => .error .wrongType

end Padding

/-- How the system presents itself. -/
def describe : String :=
  "BaseNSequenceEncoder(" ++ Text.quote n.alphabet ++ ", retains_sort_order="
    ++ (if n.retainsSortOrder then "True" else "False") ++ ")"

/-- The numeral system of an alphabet, which leaves a line when it is ready. -/
def ofAlphabet (alphabet : Value) (retainsSortOrder : Bool) : Logged Numeral := do
  let n ← ofAlphabet? alphabet retainsSortOrder
  Logged.note (.numeralReady n.radix n.alphabet (String.ofList (n.write maxValue)))
  return n

end Numeral
end ChronoId
