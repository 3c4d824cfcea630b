/-
# Check digits for any payload and alphabet

An algorithm works on decimal codes and gives an integer. The engine takes any
text as payload: decimal text is the code itself, and of other text the code
is the decimal code points of its characters, one after the other. The
absolute value of the integer, modulo the size of the target alphabet, chooses
the check character.

The method may be one of the algorithms or a function of the caller's from
bytes to bytes, whose answer is read as an integer. A consultation records
the codes that the method was asked about.

Key definitions: `Method`, `Target`, `Consultation`, `CheckDigit.code`,
`CheckDigit.compute`, `CheckDigit.isValid`.
-/
import ChronoId.CheckDigit.Algorithm
import ChronoId.Text.Symbols
import ChronoId.Value

namespace ChronoId

/-- How the integer is found. -/
inductive Method where
  | algorithm (a : Algorithm)
  | function (f : ByteArray → ByteArray)
  /-- Something that cannot be asked. -/
  | unusable

/-- An alphabet to choose check characters from. -/
structure Target where
  symbols : List Char
  size_pos : 0 < symbols.length
  nodup : symbols.Nodup

/-- A result, and the codes that the method was asked about on the way. -/
structure Consultation (α : Type) where
  asked : List String
  result : Except Error α

namespace Target

/-- The target alphabet of a value, which should be text that is not blank and
holds no character twice. -/
def ofValue? : Value → Except Error Target
  | .text s =>
    if hBlank : s.toList.all Text.isBlank = true then .error (.configuration .targetBlank)
    else if hNodup : Symbols.distinct s.toList = true then
      .ok {
        symbols := s.toList
        size_pos := List.length_pos_iff.mpr fun h => hBlank (by simp [h])
        nodup := (Symbols.distinct_iff _).mp hNodup }
    else .error (.configuration .targetRepeats)
  | _ => .error (.configuration .targetBlank)

/-- The character that `n` chooses. -/
def symbol (t : Target) (n : Nat) : Char :=
  t.symbols.get ⟨n % t.symbols.length, Nat.mod_lt _ t.size_pos⟩

end Target

namespace CheckDigit

/-- The decimal code of a payload. -/
def code (payload : List Char) : List Char :=
  if payload.all Char.isDigit then payload else payload.flatMap fun c => Natural.write c.toNat

/-- The integer that a string of bytes holds in ASCII. -/
def readAnswer? (bytes : ByteArray) : Option Int :=
  if bytes.data.toList.all (· < 128) then
    Integer.readAscii? (bytes.data.toList.map fun b => Char.ofNat b.toNat)
  else none

/-- The integer that a method finds for a code. -/
def ask (method : Method) (code : List Char) : Consultation Int :=
  match method with
  | .algorithm a => ⟨[String.ofList code], (a.number code).map Int.ofNat⟩
  | .function f =>
    let answer := f (String.ofList code).toUTF8
    ⟨[String.ofList code],
      if answer.isEmpty then .error (.input .checkDigitMissing)
      else match readAnswer? answer with
        | some i => .ok i
        | none => .error (.input (.checkDigitNotInteger answer))⟩
  | .unusable => ⟨[], .error (.configuration .methodType)⟩

/-- The check character of a payload that is not empty. -/
def computeText (payload : List Char) (method : Method) (target : Target) : Consultation Char :=
  let answer := ask method (code payload)
  ⟨answer.asked, answer.result.map fun i => target.symbol i.natAbs⟩

/-- The check character of a payload, which should be text that is not
empty. -/
def compute (payload : Value) (method : Method) (alphabet : Value) : Consultation Char :=
  match payload with
  | .text s =>
    if s.toList.isEmpty then ⟨[], .error (.input .payloadMissing)⟩
    else
      match Target.ofValue? alphabet with
      | .ok target => computeText s.toList method target
      | .error e => ⟨[], .error e⟩
  | _ => ⟨[], .error (.input .payloadMissing)⟩

/-- Whether the last character of a value checks the ones before it. A value
without room for a check character is not valid. -/
def isValid (value : Value) (method : Method) (alphabet : Value) : Consultation Bool :=
  match value with
  | .text s =>
    match s.toList.getLast? with
    | none => ⟨[], .ok false⟩
    | some last =>
      if s.toList.length < 2 then ⟨[], .ok false⟩
      else
        let answer := compute (.text (String.ofList s.toList.dropLast)) method alphabet
        ⟨answer.asked, answer.result.map (· == last)⟩
  | _ => ⟨[], .ok false⟩

end CheckDigit
end ChronoId
