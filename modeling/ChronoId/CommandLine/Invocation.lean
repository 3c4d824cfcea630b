/-
# What a command line asks for

There are four commands: to encode a sequence, to decode an identifier, to
validate one, and to compute or verify a check digit. In front of the command
may stand a settings file and an epoch.

Key definitions: `Command`, `Invocation`, `Invocation.read`.
-/
import ChronoId.CheckDigit.Algorithm
import ChronoId.CommandLine.Words
import ChronoId.Text.Integer

namespace ChronoId

/-- A command with its arguments. For a check digit an algorithm and an
alphabet may be asked for without saying which. -/
inductive Command where
  | encode (sequence : Int) (timestamp? : Option String)
  | decode (id : String)
  | validate (id : String)
  | checkDigit (payload : String) (algorithm? : Option Algorithm) (alphabet? : Option String)
      (verify : Bool)

/-- A command, and what it is to be done with. -/
structure Invocation where
  settingsFile? : Option String
  epoch? : Option String
  command : Command

namespace Invocation

/-- The options in front of the command. -/
def globalRules : List OptionRule :=
  [⟨"--settings", some fun _ => true⟩, ⟨"--epoch", some fun _ => true⟩]

/-- An option's value, unless it has none or an empty one. -/
def given? (g : Gathered) (name : String) : Option String :=
  (g.value? name).join.filter fun value => !value.isEmpty

/-- The names of the algorithms. -/
def isAlgorithm (name : String) : Bool := (Algorithm.ofName? name).isSome

/-- The options of check digits. -/
def checkDigitRules : List OptionRule :=
  [⟨"--algorithm", some isAlgorithm⟩, ⟨"--alphabet", some fun _ => true⟩, ⟨"--verify", none⟩]

variable [Host]

/-- Reads a command's words: its operand has to be there, and nothing may be
too much. -/
def readWith {α : Type} (rules : List OptionRule) (accepts : String → Bool)
    (build : String → Gathered → Option α) (words : List String) : Reading α :=
  match Word.sortAll rules words with
  | none => .misused
  | some sorted =>
    match Word.gather accepts (sorted.map (·.2)) {} with
    | .help => .help
    | .misused => .misused
    | .read g =>
      if g.stray then .misused
      else match g.operand?.bind (build · g) with
        | some a => .read a
        | none => .misused

/-- The command of a name and the words behind it. -/
def readCommand (name : String) (words : List String) : Reading Command :=
  if name = "encode" then
    readWith [⟨"--timestamp", some fun _ => true⟩]
      (fun operand => (Integer.read? operand.toList).isSome)
      (fun operand g => (Integer.read? operand.toList).map fun i =>
        .encode i (given? g "--timestamp"))
      words
  else if name = "decode" then
    readWith [] (fun _ => true) (fun operand _ => some (.decode operand)) words
  else if name = "validate" then
    readWith [] (fun _ => true) (fun operand _ => some (.validate operand)) words
  else if name = "check-digit" then
    readWith checkDigitRules (fun _ => true)
      (fun operand g => some (.checkDigit operand
        (((g.value? "--algorithm").getD (some "verhoeff")).bind Algorithm.ofName?)
        ((g.value? "--alphabet").getD (some "0123456789")) (g.value? "--verify").isSome))
      words
  else .misused

/-- Reads the options in front of the command, and then the command. A word
too much in front of it is an error only once the command has been read. -/
def readSorted : List (String × Word) → Gathered → Reading Invocation
  | [], _ => .misused
  | (_, .operand name) :: words, g =>
    match readCommand name (words.map (·.1)) with
    | .help => .help
    | .misused => .misused
    | .read command =>
      if g.stray then .misused
      else .read ⟨given? g "--settings", given? g "--epoch", command⟩
  | (_, .terminator) :: _, _ => .misused
  | (_, .help) :: _, _ => .help
  | (_, .helpMisused) :: _, _ => .misused
  | (_, .unknown) :: words, g => readSorted words { g with stray := true }
  | (_, .option rule value?) :: words, g =>
    match value? with
    | some value => readSorted words (g.give rule (Word.valueBehind value))
    | none =>
      match words with
      | (_, .operand value) :: words => readSorted words (g.give rule (some value))
      | _ => .misused

/-- What the words of a command line ask for. -/
def read (words : List String) : Reading Invocation :=
  match Word.sortAll globalRules words with
  | none => .misused
  | some sorted => readSorted sorted {}

end Invocation
end ChronoId
