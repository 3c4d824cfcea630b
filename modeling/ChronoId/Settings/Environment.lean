/-
# Settings of an environment

A process finds its settings in a file that a variable names, or in the text
of another variable; the file wins, and a variable that is empty is as good as
none. Either way the text is a JSON object. A file holds UTF-8, and its line
ends may be of any kind.

Key definitions: `FileAnswer`, `unifyLineEnds`, `Settings.ofText`,
`Settings.ofEnvironment`.
-/
import ChronoId.Json.Reader
import ChronoId.Settings.Source

namespace ChronoId

/-- What is found under the name of a file. -/
inductive FileAnswer where
  | contents (bytes : ByteArray)
  | missing
  | unreadable (problem : FileProblem)

/-- Turns every line end into a line feed. -/
def unifyLineEnds : List Char → List Char
  | [] => []
  | '\r' :: '\n' :: cs => '\n' :: unifyLineEnds cs
  | '\r' :: cs => '\n' :: unifyLineEnds cs
  | c :: cs => c :: unifyLineEnds cs

namespace Settings

/-- The variable that holds the settings. -/
def textVariable : String := "SORTID_SETTINGS"

/-- The variable that holds the name of a settings file. -/
def fileVariable : String := "SORTID_SETTINGS_FILE"

/-- The settings of a JSON text. -/
def ofText [Host] (text : String) : Except Error Settings :=
  match Json.read text with
  | .error .malformed => .error (.configuration .settingsNotJson)
  | .error .tooDeep => .error .settingsTooDeep
  | .ok (.object members) => load (.members members)
  | .ok _ => .error (.configuration .settingsNotObject)

/-- The text of a file. -/
def textOfFile (path : String) : FileAnswer → Except Error String
  | .contents bytes =>
    match String.fromUTF8? bytes with
    | some text => .ok (String.ofList (unifyLineEnds text.toList))
    | none => .error (.settingsFile .notText)
  | .missing => .error (.configuration (.settingsFileMissing path))
  | .unreadable problem => .error (.settingsFile problem)

/-- The value of a variable that is set to more than nothing. -/
def given? (env : List (String × String)) (name : String) : Option String :=
  match env.lookup name with
  | some value => if value.isEmpty then none else some value
  | none => none

/-- The settings of an environment, where `files` says what is found under a
name. -/
def ofEnvironment [Host] (env : List (String × String)) (files : String → FileAnswer) :
    Except Error Settings :=
  match given? env fileVariable with
  | some path => do ofText (← textOfFile path (files path))
  | none =>
    match given? env textVariable with
    | some text => ofText text
    | none => .ok default

end Settings
end ChronoId
