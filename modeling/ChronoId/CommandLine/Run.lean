/-
# Running a command line

A command ends with a status and what it has printed. An error that has a
wording of its own is printed, with status one, or with status two for check
digits; any other error is a crash. Words that cannot be read, and help, end
the program before any command starts, with status two and zero.

Key definitions: `Outcome`, `CommandLine.loadCodec`, `CommandLine.run`.
-/
import ChronoId.Codec
import ChronoId.CommandLine.Invocation
import ChronoId.Settings.Environment
import ChronoId.Time.Iso8601

namespace ChronoId

/-- How a run ends. -/
inductive Outcome where
  | finished (status : Nat) (output errors : String)
  /-- The words were not read as a command. -/
  | stopped (status : Nat)
  | crashed (e : Error)

namespace Outcome

/-- A success that prints a line. -/
def printed (line : String) : Outcome := .finished 0 (line ++ "\n") ""

/-- A failure that says why. -/
def refused (why : String) : Outcome := .finished 1 "" (why ++ "\n")

/-- An error that ends a run. -/
def ofError (e : Error) : Outcome :=
  if e.isOwn then refused e.message else .crashed e

/-- A verdict, which is also the status. -/
def verdict (valid : Bool) : Outcome :=
  if valid then .finished 0 "valid\n" "" else .finished 1 "invalid\n" ""

end Outcome

namespace CommandLine

/-- A date-time that an option gives. -/
def readTimestamp (option text : String) : Except Outcome DateTime :=
  match Iso8601.read? text.toList with
  | some t => .ok t
  | none => .error (Outcome.refused ("Invalid " ++ option ++ " timestamp '" ++ text ++ "'"))

/-- A result whose error ends the run. -/
def orEnd {α : Type} : Except Error α → Except Outcome α
  | .ok a => .ok a
  | .error e => .error (Outcome.ofError e)

variable [Host]

/-- The settings of the file that an option names, or else those of the
environment. -/
def loadSettings (inv : Invocation) (env : List (String × String)) (files : String → FileAnswer) :
    Except Error Settings :=
  match inv.settingsFile? with
  | some path => Settings.ofEnvironment [(Settings.fileVariable, path)] files
  | none => Settings.ofEnvironment env files

/-- The codec of the settings, with the epoch that an option gives. -/
def loadCodec (inv : Invocation) (env : List (String × String)) (files : String → FileAnswer) :
    Except Outcome Codec := do
  let settings ← orEnd (loadSettings inv env files)
  let settings ← match inv.epoch? with
    | some text => do pure (settings.withEpoch (← readTimestamp "--epoch" text))
    | none => pure settings
  orEnd (Codec.build (.ready settings) none none).result

/-- Prints the identifier of a sequence. -/
def encode (c : Codec) (sequence : Int) (timestamp? : Option String) (now : DateTime) :
    Except Outcome Outcome := do
  let timestamp ← match timestamp? with
    | some text => do pure (Value.moment (← readTimestamp "--timestamp" text))
    | none => pure Value.null
  let x ← orEnd (c.create (.int sequence) timestamp now).result
  return Outcome.printed x.json

/-- Prints what an identifier stands for. -/
def decode (c : Codec) (id : String) : Except Outcome Outcome := do
  match ← orEnd (c.decode (.text id)).result with
  | some x => return Outcome.printed x.json
  | none => return Outcome.refused ("Invalid identifier '" ++ id ++ "'")

/-- Prints whether an identifier is one. -/
def validate (c : Codec) (id : String) : Except Outcome Outcome := do
  return Outcome.verdict (← orEnd (c.isValid (.text id)).result)

/-- An error about a check digit. -/
def checkDigitError (e : Error) : Outcome :=
  if e.isOwn then .finished 2 "" ("error: " ++ e.message ++ "\n") else .crashed e

/-- Prints a check digit, or whether the last character is one. -/
def checkDigit (payload : String) (a : Algorithm) (alphabet : Value) (verify : Bool) : Outcome :=
  if verify then
    match (CheckDigit.isValid (.text payload) (.algorithm a) alphabet).result with
    | .ok valid => Outcome.verdict valid
    | .error e => checkDigitError e
  else
    match (CheckDigit.compute (.text payload) (.algorithm a) alphabet).result with
    | .ok c => Outcome.printed (String.singleton c)
    | .error e => checkDigitError e

/-- The value of an option for text. -/
def optionValue : Option String → Value
  | some s => .text s
  | none => .null

/-- Runs a command. -/
def perform (inv : Invocation) (env : List (String × String)) (files : String → FileAnswer)
    (now : DateTime) : Except Outcome Outcome :=
  match inv.command with
  | .encode sequence timestamp? => do encode (← loadCodec inv env files) sequence timestamp? now
  | .decode id => do decode (← loadCodec inv env files) id
  | .validate id => do validate (← loadCodec inv env files) id
  | .checkDigit payload (some a) alphabet? verify =>
    .ok (checkDigit payload a (optionValue alphabet?) verify)
  | .checkDigit _ none _ _ => .error (.crashed (.unknownAlgorithm ""))

/-- Runs the command that `words` ask for, in an environment and with what is
found under the names of files. -/
def run (words : List String) (env : List (String × String)) (files : String → FileAnswer)
    (now : DateTime) : Outcome :=
  match Invocation.read words with
  | .help => .stopped 0
  | .misused => .stopped 2
  | .read inv =>
    match perform inv env files now with
    | .ok outcome => outcome
    | .error outcome => outcome

/-- The settings file that a run reads, if it reads one. -/
def settingsFile? (words : List String) (env : List (String × String)) : Option String :=
  match Invocation.read words with
  | .read inv =>
    match inv.settingsFile? with
    | some path => some path
    | none => Settings.given? env Settings.fileVariable
  | _ => none

end CommandLine
end ChronoId
